import Rationale.Proofs.Registrations
import Rationale.Proofs.Transfers

/-!
What failing commands leave of their output. A command has its text before it opens what the text is written to, so one
that fails has not opened it, or could not. Only a framework that there is not is looked for after the output was opened:
what its description was to be written to is left empty.
-/

namespace Rationale

namespace CommandLine

/-- Where the text of a request is to be written, unless it is the standard output. -/
def Request.output : Request → Option String
  | .explain r => r.output
  | .ask r => r.output
  | .describe r => r.output
  | .generateTree r => r.output

/-- A framework is to be described that there is not. -/
def Request.Misses : Request → Prop
  | .describe r => ∃ key, r.framework = some key ∧ ∀ E, minimax noTree = .ok E → key ∉ E.keys
  | _ => False

section Delivery
variable {S : Surroundings} {output : Option String} {text path : String} {failure : Option Failure}

/-- The output cannot be opened. -/
def Surroundings.Refused (S : Surroundings) (output : Option String) : Prop :=
  ∃ path e, output = some path ∧ S.create path = .error e

theorem exit_deliver (h : (S.deliver output text failure).exit ≠ 0) : failure.isSome = true ∨ S.Refused output := by
  cases failure with
  | some f => exact .inl rfl
  | none =>
    unfold Surroundings.deliver at h
    cases output with
    | none => exact absurd rfl h
    | some path =>
      dsimp only at h
      split at h
      · rename_i e refused
        exact .inr ⟨path, e, rfl, refused⟩
      all_goals exact absurd rfl h

theorem exit_of_failure (f : Failure) : (S.deliver output text (some f)).exit = 1 := by
  unfold Surroundings.deliver
  cases output with
  | none => rfl
  | some path =>
    dsimp only
    split <;> rfl

theorem exit_finish {result : Except Failure String} (h : (S.finish output result).exit ≠ 0) :
    (∃ f, result = .error f) ∨ S.Refused output := by
  cases result with
  | error f => exact .inl ⟨f, rfl⟩
  | ok text => exact .inr ((exit_deliver h).resolve_left (by decide))

theorem written_finish {result : Except Failure String} {text : String}
    (h : (S.finish output result).written = some (path, text)) : output = some path ∧ S.create path = .ok .file := by
  cases result with
  | error f => cases h
  | ok text => exact ⟨(written_deliver.mp h).1, (written_deliver.mp h).2.1⟩

end Delivery

theorem descriptions_eq_none {N : Type} {E : Explainer N} {keys : List String} (h : ∀ key ∈ keys, key ∈ E.keys) :
    (descriptions E keys).2 = none := by
  induction keys with
  | nil => rfl
  | cons key rest ih =>
    obtain ⟨known, h⟩ := List.forall_mem_cons.mp h
    obtain ⟨F, hF⟩ := Option.isSome_iff_exists.mp (Explainer.framework?_isSome.mpr known)
    rw [descriptions, hF]
    exact ih h

theorem DescribeRequest.run_eq {r : DescribeRequest} {S : Surroundings} {E : Explainer (TreeNode noTree)}
    (h : minimax noTree = .ok E) : r.run S =
      let described := descriptions E ((r.framework.map ([·])).getD E.keys)
      S.deliver r.output described.1 described.2 := by
  rw [run, h]
  cases r.framework <;> rfl

namespace Request

variable {r : Request} {S : Surroundings}

/-- A text is only written to an output that was opened as a file. -/
theorem written_run {path text : String} (h : (r.run S).written = some (path, text)) :
    r.output = some path ∧ S.create path = .ok .file := by
  cases r with
  | explain r => exact written_finish h
  | ask r => exact written_finish h
  | describe r =>
    rw [run, DescribeRequest.run] at h
    split at h
    · cases h
    · exact ⟨(written_deliver.mp h).1, (written_deliver.mp h).2.1⟩
  | generateTree r =>
    obtain ⟨-, -, wanted, created, -⟩ := GenerateRequest.run_written.mp h
    exact ⟨wanted, created⟩

theorem written_of_refused (h : S.Refused r.output) : (r.run S).written = none := by
  obtain ⟨path, e, wanted, refused⟩ := h
  refine Option.eq_none_iff_forall_ne_some.mpr fun ⟨path', text⟩ written => ?_
  obtain ⟨wanted', created⟩ := written_run written
  cases wanted.symm.trans wanted'
  rw [refused] at created
  cases created

/-- The outcome is the same whatever comes of opening the output. -/
def Unopened (r : Request) (S : Surroundings) : Prop := ∀ create, r.run { S with create } = r.run S

/-- Where the output was not opened, no other one could have been written to either. -/
theorem Unopened.written (h : r.Unopened S) : (r.run S).written = none := by
  refine Option.eq_none_iff_forall_ne_some.mpr fun ⟨path, text⟩ written => ?_
  rw [← h fun _ => .error .notFound] at written
  cases (written_run written).2

/-- The output is opened last where the text is found without it. -/
theorem unopened_of_finish (text : Surroundings → Except Failure String)
    (ends : ∀ S, r.run S = S.finish r.output (text S)) (blind : ∀ create, text { S with create } = text S)
    (fails : (r.run S).exit ≠ 0) : r.Unopened S ∨ S.Refused r.output := by
  rw [ends] at fails
  rcases exit_finish fails with ⟨f, failed⟩ | refused
  · refine .inl fun create => ?_
    rw [ends, ends, blind, failed]
    rfl
  · exact .inr refused

/-- A request that fails has not opened its output, or could not, unless it was for a framework that there is not. -/
theorem unopened_of_exit (fails : (r.run S).exit ≠ 0) (found : ¬r.Misses) : r.Unopened S ∨ S.Refused r.output := by
  cases r with
  | explain r => exact unopened_of_finish r.text (fun _ => rfl) (fun _ => rfl) fails
  | ask r => exact unopened_of_finish r.text (fun _ => rfl) (fun _ => rfl) fails
  | describe r =>
    cases hE : minimax noTree with
    | error f =>
      refine .inl fun create => ?_
      rw [run, run, DescribeRequest.run, DescribeRequest.run, hE]
    | ok E =>
      rw [run, DescribeRequest.run_eq hE] at fails
      refine .inr ((exit_deliver fails).resolve_left fun failed => ?_)
      -- A framework that was asked for is there, so there is a text for it and only the output can fail.
      have known : ∀ key ∈ (r.framework.map ([·])).getD E.keys, key ∈ E.keys := by
        intro key hkey
        cases hr : r.framework with
        | none => rwa [hr] at hkey
        | some asked =>
          rw [hr] at hkey
          obtain rfl := List.mem_singleton.mp hkey
          refine Classical.byContradiction fun unknown => found ⟨key, hr, fun E' hE' => ?_⟩
          cases hE.symm.trans hE'
          exact unknown
      rw [descriptions_eq_none known] at failed
      cases failed
  | generateTree r =>
    by_cases proper : r.branching ≠ 0 ∧ ∃ t, GameTree.ofSpec (r.spec S) = .ok t
    · obtain ⟨pos, t, accepted⟩ := proper
      obtain ⟨stderr, hrun⟩ := GenerateRequest.run_accepted pos accepted
      rw [run, hrun] at fails
      exact .inr ((exit_deliver fails).resolve_left (by decide))
    · obtain ⟨exit, stderr, hrun⟩ := GenerateRequest.run_refused proper
      exact .inl fun create => (hrun create).trans (hrun S.create).symm

/-- That a framework is missing is found out when the output is open. -/
theorem run_misses (misses : r.Misses) (S : Surroundings) :
    ∃ f, ∀ create, r.run { S with create } = ({ S with create } : Surroundings).deliver r.output "" (some f) := by
  cases r with
  | describe r =>
    obtain ⟨key, asked, missing⟩ := misses
    obtain ⟨E, hE⟩ : ∃ E, minimax noTree = .ok E := ⟨_, rfl⟩
    refine ⟨⟨"Unknown framework: " ++ key, []⟩, fun create => ?_⟩
    rw [run, DescribeRequest.run_eq hE, asked]
    dsimp only [Option.map_some, Option.getD_some]
    rw [descriptions, Explainer.framework?_eq_none.mpr (missing E hE)]
    rfl
  | _ => cases misses

end Request

/-! ### The folder -/

namespace Folder

variable {F : Folder} {seed : Nat} {arguments : List String} {path : String}

theorem after_of_unwritten {o : Outcome} (h : o.written = none) : F.after o = F := by
  rw [after, h]

/-- Nothing changes in the folder where a text does not go to a file. -/
theorem write_elsewhere {sink : Sink} (opened : F.create path = .ok sink) (elsewhere : sink ≠ .file) (text : String) :
    F.write path text = F := by
  unfold create at opened
  cases hlength : checkLength path with
  | error e =>
    rw [hlength] at opened
    cases opened
  | ok u =>
    simp only [hlength, bind, Except.bind] at opened
    unfold write
    split at opened
    · split at opened <;> cases opened
    · split at opened
      · cases opened
      · rename_i place hplace
        rw [hplace]
        cases place with
        | entry name old => exact absurd (Except.ok.inj opened).symm elsewhere
        | _ => rfl

theorem after_deliver {sink : Sink} (opened : F.create path = .ok sink) (text : String) (failure : Option Failure) :
    F.after ((F.surroundings seed).deliver (some path) text failure) = F.write path text := by
  have created : (F.surroundings seed).create path = .ok sink := opened
  cases sink with
  | file => rw [after, written_deliver.mpr ⟨rfl, created, rfl⟩]
  | _ =>
    rw [write_elsewhere opened (by simp)]
    unfold Surroundings.deliver
    dsimp only
    rw [created]
    rfl

/-- A run leaves the folder as it was: it has not opened the output, whatever would have come of that, or could not. -/
structure Spared (F : Folder) (seed : Nat) (arguments : List String) : Prop where
  kept : F.after (run (F.surroundings seed) arguments) = F
  unopened : (∀ create, run ⟨F.read, create, seed⟩ arguments = run (F.surroundings seed) arguments) ∨
    ∃ r, Request.parse arguments = .ok r ∧ (F.surroundings seed).Refused r.output

/-- A run is for a framework that there is not, and leaves its output empty. -/
inductive Emptied (F : Folder) (seed : Nat) (arguments : List String) : Prop
  | intro {r : Request} {path : String} {sink : Sink} (asked : Request.parse arguments = .ok r) (misses : r.Misses)
      (wanted : r.output = some path) (opened : F.create path = .ok sink)
      (left : F.after (run (F.surroundings seed) arguments) = F.write path "")

section Run
variable {r : Request} (asked : Request.parse arguments = .ok r)

include asked

theorem run_eq (S : Surroundings) : run S arguments = r.run S := by
  rw [run, asked]

theorem Spared.of_unopened (h : r.Unopened (F.surroundings seed)) : F.Spared seed arguments where
  kept := after_of_unwritten (by rw [run_eq asked]; exact h.written)
  unopened := .inl fun create => by rw [run_eq asked, run_eq asked]; exact h create

theorem Spared.of_refused (h : (F.surroundings seed).Refused r.output) : F.Spared seed arguments where
  kept := after_of_unwritten (by rw [run_eq asked]; exact Request.written_of_refused h)
  unopened := .inr ⟨r, asked, h⟩

theorem run_of_misses (misses : r.Misses) (wanted : r.output = some path) :
    ∃ f, run (F.surroundings seed) arguments = (F.surroundings seed).deliver (some path) "" (some f) := by
  obtain ⟨f, hrun⟩ := Request.run_misses misses (F.surroundings seed)
  refine ⟨f, ?_⟩
  rw [run_eq asked, ← wanted]
  exact hrun F.create

/-- The missing framework is no harm where the output is the standard output, or cannot be opened. -/
theorem spared_or_emptied (misses : r.Misses) : F.Spared seed arguments ∨ F.Emptied seed arguments := by
  cases wanted : r.output with
  | none =>
    obtain ⟨f, hrun⟩ := Request.run_misses misses (F.surroundings seed)
    refine .inl (.of_unopened asked fun create => ?_)
    rw [hrun, show r.run (F.surroundings seed) = _ from hrun F.create, wanted]
    rfl
  | some path =>
    cases opened : F.create path with
    | error e => exact .inl (.of_refused asked ⟨path, e, wanted, opened⟩)
    | ok sink =>
      obtain ⟨f, hrun⟩ := run_of_misses asked misses wanted
      exact .inr (.intro asked misses wanted opened (by rw [hrun, after_deliver opened]))

end Run

/-- A program that fails leaves the folder as it was, unless it is for a framework that there is not. -/
theorem failed_spares (fails : (run (F.surroundings seed) arguments).exit ≠ 0) :
    F.Spared seed arguments ∨ F.Emptied seed arguments := by
  cases asked : Request.parse arguments with
  | error stop =>
    have stopped (S : Surroundings) : run S arguments = stop.outcome := by rw [run, asked]
    refine .inl ⟨after_of_unwritten ?_, .inl fun create => ?_⟩
    · rw [stopped]
      cases stop <;> rfl
    · rw [stopped, stopped]
  | ok r =>
    by_cases misses : r.Misses
    · exact spared_or_emptied asked misses
    · rw [run_eq asked] at fails
      rcases Request.unopened_of_exit fails misses with unopened | refused
      · exact .inl (.of_unopened asked unopened)
      · exact .inl (.of_refused asked refused)

end Folder

end CommandLine

/-- A tree of three nodes. -/
def TreeSpec.choice : TreeSpec := .internal "now" [.leaf "left" (.ofInt 3), .leaf "right" (.ofInt 1)]

theorem TreeSpec.legible_choice : choice.Legible := by
  intro node hnode x hx
  rcases hnode with _ | ⟨_, _ | ⟨_, _ | ⟨_, ⟨⟩⟩⟩⟩
  · cases hx
  · cases hx
    exact Json.word_evaluation (by decide) (by decide)
  · cases hx
    exact Json.word_evaluation (by decide) (by decide)

namespace CommandLine.Folder

/-- A folder with the tree, and with a text from before. -/
def used : Folder := ⟨[("tree.json", TreeSpec.choice.file), ("out.txt", "kept")]⟩

/-- Arguments that ask for a node that the tree does not have. -/
def absentNode : List String := ["explain", "--tree", "tree.json", "--node", "then", "--output", "out.txt"]

/-- The text stays where the node is not there. -/
theorem used_spared : (run (used.surroundings 0) absentNode).exit = 1 ∧ used.Spared 0 absentNode := by
  have asked : Request.parse absentNode =
      .ok (.explain { tree := "tree.json", node := "then", output := some "out.txt" }) := rfl
  obtain ⟨t, accepted, absent⟩ : ∃ t, GameTree.ofSpec TreeSpec.choice = .ok t ∧ t.find? "then" = none := ⟨_, rfl, rfl⟩
  have found : (used.surroundings 0).tree "tree.json" = .ok t := by
    rw [Surroundings.tree_file TreeSpec.legible_choice accepted rfl]
    rfl
  have fails : (run (used.surroundings 0) absentNode).exit = 1 := by
    rw [run_eq asked, (Surroundings.finds found).explained _ rfl, ExplainRequest.textOn, findNode, absent]
    rfl
  refine ⟨fails, (failed_spares (by rw [fails]; decide)).resolve_right ?_⟩
  rintro ⟨asked', misses, -, -, -⟩
  cases asked.symm.trans asked'
  cases misses

/-- Arguments that ask for a framework that there is not. -/
def absentFramework : List String := ["describe", "--framework", "zzz", "--output", "out.txt"]

/-- The text is lost where the framework is not there. -/
theorem used_emptied : (run (used.surroundings 0) absentFramework).exit = 1 ∧ used.read "out.txt" = .ok (some "kept") ∧
    (used.after (run (used.surroundings 0) absentFramework)).read "out.txt" = .ok (some "") := by
  have asked : Request.parse absentFramework = .ok (.describe ⟨some "zzz", some "out.txt"⟩) := rfl
  have misses : Request.Misses (.describe ⟨some "zzz", some "out.txt"⟩) := by
    obtain ⟨E, hE, keys⟩ : ∃ E, minimax noTree = .ok E ∧ E.keys = ["highlevel", "lowlevel"] := ⟨_, rfl, rfl⟩
    refine ⟨"zzz", rfl, fun E' hE' => ?_⟩
    cases hE.symm.trans hE'
    rw [keys]
    decide
  have created : used.create "out.txt" = .ok .file := rfl
  obtain ⟨f, hrun⟩ := run_of_misses asked misses rfl
  rw [hrun, after_deliver created]
  exact ⟨exit_of_failure f, rfl, read_write created ""⟩

end CommandLine.Folder

end Rationale
