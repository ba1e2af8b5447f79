import Rationale.Adjective
import Rationale.Choice
import Rationale.Claim
import Rationale.CommandLine.Arguments
import Rationale.CommandLine.Files
import Rationale.CommandLine.Outcome
import Rationale.CommandLine.Request
import Rationale.Expansion
import Rationale.Explainer
import Rationale.Framework.Basic
import Rationale.Framework.Evaluate
import Rationale.Framework.Listing
import Rationale.GameTree.Basic
import Rationale.GameTree.Frameworks
import Rationale.GameTree.Random
import Rationale.GameTree.Spec
import Rationale.Json.Basic
import Rationale.Json.Decode
import Rationale.Json.Document
import Rationale.Json.Token
import Rationale.Main
import Rationale.Number.Basic
import Rationale.Number.Rounding
import Rationale.Number.Shortest
import Rationale.Number.Text
import Rationale.Operator
import Rationale.Proof.Basic
import Rationale.Proof.Normal
import Rationale.Proof.Render
import Rationale.Proof.Rewrite
import Rationale.Question
import Rationale.Settings
import Rationale.Tactic
import Rationale.Template
import Rationale.Text.Blank
import Rationale.Text.CaseTable
import Rationale.Text.CharClass
import Rationale.Text.EscapeTable
import Rationale.Text.Lowercase
import Rationale.Text.Natural
import Rationale.Text.Quoted
import Rationale.Value
import Rationale.Proofs.Entries
import Rationale.Proofs.Tactics
import Rationale.Proofs.Filling
import Rationale.Proofs.Truth
import Rationale.Proofs.Asks
import Rationale.Proofs.Clear
import Rationale.Proofs.Cycles
import Rationale.Proofs.Depth
import Rationale.Proofs.Layout
import Rationale.Proofs.Minimax
import Rationale.Proofs.Scores
import Rationale.Proofs.Nodes
import Rationale.Proofs.Sources
import Rationale.Proofs.References
import Rationale.Proofs.Groups
import Rationale.Proofs.Conclusions
import Rationale.Proofs.Ranks
import Rationale.Proofs.Assumptions
import Rationale.Proofs.Outlines
import Rationale.Proofs.Lockstep
import Rationale.Proofs.Deepening
import Rationale.Proofs.Levels
import Rationale.Proofs.Counting
import Rationale.Proofs.Arena
import Rationale.Proofs.Descriptions
import Rationale.Proofs.Choices
import Rationale.Proofs.Room
import Rationale.Proofs.Chains
import Rationale.Proofs.Frames
import Rationale.Proofs.Edits
import Rationale.Proofs.Registrations
import Rationale.Proofs.Growth
import Rationale.Proofs.Readings
import Rationale.Proofs.Tokens
import Rationale.Proofs.Documents
import Rationale.Proofs.Files
import Rationale.Proofs.Transfers
import Rationale.Proofs.NormalForms
import Rationale.Proofs.Relevance
import Rationale.Proofs.Sameness
import Rationale.Proofs.Batches
import Rationale.Proofs.Compaction
import Rationale.Proofs.Bundles
import Rationale.Proofs.Idempotence
import Rationale.Proofs.Removals
import Rationale.Proofs.Formulas
import Rationale.Proofs.Listings
import Rationale.Proofs.Questions
import Rationale.Proofs.Answers
import Rationale.Proofs.Orbits
import Rationale.Proofs.Layers
import Rationale.Proofs.Texts
import Rationale.Proofs.SameText
import Rationale.Proofs.Blame
import Rationale.Proofs.Outputs
import Rationale.Proofs.Traversals
