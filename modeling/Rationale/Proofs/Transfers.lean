import Rationale.Proofs.Files

/-!
What commands write and what they read. A command leaves the text of a generated tree in a file or on the standard
output, and the commands that explain a tree and answer about it find just that tree in any file with the text, down to
the depth that a reader of files takes. So whatever is written can be read back, on its own and from the files of
commands.
-/

namespace Rationale

namespace CommandLine

namespace Surroundings

/-- Commands that read a file work on the tree `t`. -/
structure Finds (S : Surroundings) (path : String) (t : GameTree) : Prop where
  tree : S.tree path = .ok t
  explained : ∀ r : ExplainRequest, r.tree = path → (Request.explain r).run S = S.finish r.output (r.textOn S t)
  answered : ∀ r : AskRequest, r.tree = path → (Request.ask r).run S = S.finish r.output (r.textOn t)

/-- Commands that read a file do not take its text for a tree. -/
structure Refuses (S : Surroundings) (path : String) : Prop where
  explained : ∀ r : ExplainRequest, r.tree = path →
    (Request.explain r).run S = .failed ⟨"Failed to parse tree JSON file: " ++ path, []⟩
  answered : ∀ r : AskRequest, r.tree = path →
    (Request.ask r).run S = .failed ⟨"Failed to parse tree JSON file: " ++ path, []⟩

variable {S : Surroundings} {path : String}

theorem finds {t : GameTree} (h : S.tree path = .ok t) : S.Finds path t where
  tree := h
  explained r here := by
    rw [Request.run, ExplainRequest.text, here, h]
    rfl
  answered r here := by
    rw [Request.run, AskRequest.text, here, h]
    rfl

theorem refuses (h : S.tree path = .error ⟨"Failed to parse tree JSON file: " ++ path, []⟩) : S.Refuses path where
  explained r here := by
    rw [Request.run, ExplainRequest.text, here, h]
    rfl
  answered r here := by
    rw [Request.run, AskRequest.text, here, h]
    rfl

theorem tree_file {s : TreeSpec} (legible : s.Legible) {t : GameTree} (accepted : GameTree.ofSpec s = .ok t)
    (h : S.read path = .ok (some s.file)) : S.tree path =
      if s.height ≤ 63 then .ok t else .error ⟨"Failed to parse tree JSON file: " ++ path, []⟩ := by
  rw [tree, load, h]
  dsimp only
  rw [Option.bind_some, legible.parseSpec?_file]
  by_cases shallow : s.height ≤ 63
  · rw [if_pos shallow, if_pos shallow]
    dsimp only [bind, Except.bind]
    rw [accepted]
    rfl
  · rw [if_neg shallow, if_neg shallow]
    rfl

end Surroundings

/-! ### Generating trees -/

/-- A text that a command leaves: in a file, or on the standard output, if there is any. -/
inductive Outcome.Leaves (o : Outcome) (text : String) : Prop
  | file {path : String} (h : o.written = some (path, text))
  | output (h : o.stdout = text) (there : text ≠ "")

theorem Outcome.not_leaves {exit : Nat} {stderr text : String} : ¬(⟨exit, "", stderr, none⟩ : Outcome).Leaves text := by
  rintro (⟨⟨⟩⟩ | ⟨rfl, there⟩)
  exact there rfl

/-- A text is written to a file if the file can be created. -/
theorem written_deliver {S : Surroundings} {output : Option String} {text path text' : String}
    {failure : Option Failure} : (S.deliver output text failure).written = some (path, text') ↔
      output = some path ∧ S.create path = .ok .file ∧ text = text' := by
  unfold Surroundings.deliver
  cases output with
  | none => exact ⟨nofun, fun h => nomatch h.1⟩
  | some given =>
    dsimp only
    rw [Option.some.injEq]
    constructor
    · intro h
      split at h
      case h_2 created =>
        obtain ⟨rfl, rfl⟩ := Prod.mk.inj (Option.some.inj h)
        exact ⟨rfl, created, rfl⟩
      all_goals cases h
    · rintro ⟨rfl, created, rfl⟩
      rw [created]

/-- No other text is left than the one that is delivered. -/
theorem leaves_deliver {S : Surroundings} {output : Option String} {text text' : String}
    (h : (S.deliver output text).Leaves text') : text = text' := by
  rcases h with h | ⟨h, there⟩
  · exact (written_deliver.mp h).2.2
  · unfold Surroundings.deliver at h
    cases output with
    | none => exact h
    | some path =>
      dsimp only at h
      split at h
      case h_3 => exact h
      all_goals exact absurd h.symm there

namespace GenerateRequest

variable {r : GenerateRequest} {S : Surroundings}

/-- What is not generated is refused before the output is opened. -/
theorem run_refused (h : ¬(r.branching ≠ 0 ∧ ∃ t, GameTree.ofSpec (r.spec S) = .ok t)) :
    ∃ exit stderr, ∀ create, r.run { S with create } = ⟨exit, "", stderr, none⟩ := by
  unfold run
  by_cases none : r.branching = 0
  · exact ⟨_, _, fun create => if_pos none⟩
  · cases accepted : GameTree.ofSpec (r.spec S) with
    | ok t => exact absurd ⟨none, t, accepted⟩ h
    | error e =>
      have unopened (create : String → Except FileError Sink) : r.spec { S with create } = r.spec S := rfl
      simp only [if_neg none, unopened, accepted]
      exact ⟨_, _, fun _ => rfl⟩

theorem run_accepted (pos : r.branching ≠ 0) {t : GameTree} (accepted : GameTree.ofSpec (r.spec S) = .ok t) :
    ∃ stderr, r.run S = { S.deliver r.output (r.spec S).file with stderr } := by
  unfold run
  rw [if_neg pos]
  simp only [accepted]
  exact ⟨_, rfl⟩

/-- A description is left if it is one of a tree. -/
theorem of_leaves {text : String} (h : (r.run S).Leaves text) :
    r.branching ≠ 0 ∧ (∃ t, GameTree.ofSpec (r.spec S) = .ok t) ∧ (r.spec S).file = text := by
  by_cases proper : r.branching ≠ 0 ∧ ∃ t, GameTree.ofSpec (r.spec S) = .ok t
  · refine ⟨proper.1, proper.2, ?_⟩
    obtain ⟨pos, t, accepted⟩ := proper
    obtain ⟨stderr, hrun⟩ := run_accepted pos accepted
    rw [hrun] at h
    have left : (S.deliver r.output (r.spec S).file).Leaves text := by
      rcases h with h | ⟨h, there⟩
      · exact .file h
      · exact .output h there
    exact leaves_deliver left
  · obtain ⟨exit, stderr, hrun⟩ := run_refused proper
    rw [show r.run S = _ from hrun S.create] at h
    exact absurd h Outcome.not_leaves

/-- It is written to a file that can be created. -/
theorem run_written {path text : String} : (r.run S).written = some (path, text) ↔
    r.branching ≠ 0 ∧ (∃ t, GameTree.ofSpec (r.spec S) = .ok t) ∧
      r.output = some path ∧ S.create path = .ok .file ∧ (r.spec S).file = text := by
  by_cases proper : r.branching ≠ 0 ∧ ∃ t, GameTree.ofSpec (r.spec S) = .ok t
  · rw [and_iff_right proper.1, and_iff_right proper.2]
    obtain ⟨pos, t, accepted⟩ := proper
    obtain ⟨stderr, hrun⟩ := run_accepted pos accepted
    rw [hrun]
    exact written_deliver
  · obtain ⟨exit, stderr, hrun⟩ := run_refused proper
    rw [show r.run S = _ from hrun S.create]
    exact ⟨nofun, fun h => absurd ⟨h.1, h.2.1⟩ proper⟩

end GenerateRequest

end CommandLine

/-! ### What is written and what is read -/

/-- Just the fields that are set are written, and the patch is read from them. -/
structure SettingsPatch.ReadBack (p : SettingsPatch) : Prop where
  written : ∃ fields, p.toJson = .record fields ∧ fields.map (·.1) = Settings.fieldNames.filter p.sets
  read : ofJson p.toJson.kept = .ok p

/-- Evaluations and children are written where there are any, and the description is read from that. -/
structure TreeSpec.ReadBack (s : TreeSpec) : Prop where
  written : ∃ fields, s.toJson = .record fields ∧ fields.map (·.1) = "label" ::
    ((if s.evaluation = none then [] else ["evaluation"]) ++ if s.children = [] then [] else ["children"])
  read : ofJson s.toJson.kept = .ok s

open CommandLine

/-- The tree that is generated is the one found in any file with its text, if it is at most 63 levels deep. The files of
deeper ones are refused. -/
structure CommandLine.GenerateRequest.ReadBack (r : GenerateRequest) (S : Surroundings) (text : String) (t : GameTree) :
    Prop where
  generated : t.toSpec? = some (r.spec S)
  found : ∀ (S' : Surroundings) path, r.depth ≤ 63 → S'.read path = .ok (some text) → S'.Finds path t
  refused : ∀ (S' : Surroundings) path, 63 < r.depth → S'.read path = .ok (some text) → S'.Refuses path

theorem CommandLine.GenerateRequest.readBack_of_leaves {r : GenerateRequest} {S : Surroundings} {text : String}
    (h : (r.run S).Leaves text) : ∃ t, r.ReadBack S text t := by
  obtain ⟨pos, ⟨t, accepted⟩, rfl⟩ := of_leaves h
  have legible : (r.spec S).Legible := TreeSpec.random_legible _ _ _
  have height : (r.spec S).height = r.depth := TreeSpec.random_height _ _ pos
  refine ⟨t, GameTree.toSpec?_ofSpec accepted, fun S' path shallow read => ?_, fun S' path deep read => ?_⟩
  · refine S'.finds ?_
    rw [S'.tree_file legible accepted read, height, if_pos shallow]
  · refine S'.refuses ?_
    rw [S'.tree_file legible accepted read, height, if_neg (by omega)]

theorem CommandLine.GenerateRequest.read_after {r : GenerateRequest} {F : Folder} {seed : Nat} {path text : String}
    (h : (r.run (F.surroundings seed)).written = some (path, text)) :
    (F.after (r.run (F.surroundings seed))).read path = .ok (some text) := by
  rw [Folder.after, h]
  exact Folder.read_write (run_written.mp h).2.2.2.1 text

/-- What is written is read back: patches of settings, where what is not written is not set; settings; and descriptions
of trees. A generated tree is found in the file it was written to, unless it is too deep for a reader of files. -/
theorem written_read :
    (∀ p : SettingsPatch, (∀ n, p.explanationDepth = some n → n < UInt32.size) → p.ReadBack) ∧
    (∀ fields p name, SettingsPatch.ofJson (.record fields) = .ok p → name ∉ fields.map (·.1) → p.sets name = false) ∧
    (∀ s : Settings, s.explanationDepth < UInt32.size → Settings.ofJson s.toJson.kept = .ok s) ∧
    (∀ s : TreeSpec, (∀ node ∈ s.preorder, ∀ x, node.evaluation = some x → x.isFinite) → s.ReadBack) ∧
    (∀ (r : GenerateRequest) S text, (r.run S).Leaves text → ∃ t, r.ReadBack S text t) ∧
    ∀ (r : GenerateRequest) (F : Folder) seed path text, (r.run (F.surroundings seed)).written = some (path, text) →
      (F.after (r.run (F.surroundings seed))).read path = .ok (some text) := by
  refine ⟨fun p range => ?_, fun fields p name h absent => ?_, fun s range => ?_, fun s finite => ?_,
    fun r S text h => ?_, fun r F seed path text h => ?_⟩
  · exact ⟨⟨p.fields, p.toJson_eq, p.names_fields⟩, p.ofJson_kept range⟩
  · exact SettingsPatch.sets_ofJson h absent
  · exact s.ofJson_kept range
  · exact ⟨⟨s.fields, s.toJson_eq, s.names_fields⟩, s.ofJson_kept finite⟩
  · exact GenerateRequest.readBack_of_leaves h
  · exact GenerateRequest.read_after h

/-- A folder without files. -/
def CommandLine.Folder.empty : Folder := ⟨[]⟩

/-- A request for a chain of nodes in a file. -/
def CommandLine.GenerateRequest.chain (depth : Nat) : GenerateRequest :=
  { seed := some 7, depth, branching := 1, output := some "chain.json" }

/-- What comes of it in the folder without files. -/
def CommandLine.GenerateRequest.chainOutcome (depth : Nat) : Outcome := (chain depth).run (Folder.empty.surroundings 0)

theorem CommandLine.GenerateRequest.chain_written (depth : Nat) :
    (chainOutcome depth).written = some ("chain.json", (TreeSpec.random 7 depth 1).file) := by
  have created : Folder.empty.create "chain.json" = .ok .file := rfl
  have few : 1 ≤ 10 := by decide
  exact run_written.mpr ⟨Nat.one_ne_zero, (TreeSpec.random_accepted 7 depth).mpr (.inr few), rfl, created, rfl⟩

/-- A short chain is found where it was written. -/
theorem written_read_chain :
    (∃ t, ((Folder.empty.after (GenerateRequest.chainOutcome 2)).surroundings 1).Finds "chain.json" t) ∧
    SettingsPatch.ReadBack { explanationDepth := some 3, printDepth := some true } ∧
    Settings.ofJson (Settings.toJson {}).kept = .ok {} ∧
    (TreeSpec.internal "now" [.leaf "left" (.zero true), .internal "right" [.leaf "far" (.zero false)]]).ReadBack := by
  obtain ⟨patches, -, settings, specs, generated, left⟩ := written_read
  have written := GenerateRequest.chain_written 2
  obtain ⟨t, back⟩ := generated (.chain 2) _ _ (.file written)
  have read := left (.chain 2) Folder.empty 0 _ _ written
  refine ⟨⟨t, back.found _ _ (by decide) read⟩, ?_, ?_, ?_⟩
  · exact patches _ (by decide)
  · exact settings _ (by decide)
  · exact specs _ (by decide)

/-- A chain of 65 nodes is written, and neither command that reads a tree takes it for one. -/
theorem chain_unread : ∃ text, (GenerateRequest.chainOutcome 64).written = some ("chain.json", text) ∧
    ((Folder.empty.after (GenerateRequest.chainOutcome 64)).surroundings 1).Refuses "chain.json" := by
  have written := GenerateRequest.chain_written 64
  obtain ⟨t, back⟩ := GenerateRequest.readBack_of_leaves (.file written)
  exact ⟨_, written, back.refused _ _ (by decide) (GenerateRequest.read_after written)⟩

end Rationale
