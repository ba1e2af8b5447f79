import Rationale.CommandLine.Outcome
import Rationale.Proofs.Documents
import Rationale.Proofs.Growth
import Rationale.Proofs.Readings

/-!
Trees in files. The file of a tree has two containers for every level, and a reader takes no more than a certain number of
them inside one another: a deeper tree is refused, and any other one comes back as it was. A folder gives a file back as
it was written.
-/

namespace Rationale

namespace TreeSpec

theorem document_fields (s : TreeSpec) : s.toJson.document = .record ((some "label", .text (some s.label)) ::
    ((s.evaluation.map fun x => (some "evaluation", .number (some (.float x)))).toList
      ++ if s.children = [] then [] else [(some "children", .list (s.children.map fun c => c.toJson.document))])) := by
  obtain ⟨label, evaluation, children⟩ := s
  have all (specs : List TreeSpec) : Json.documents (toJsonOfAll specs) = specs.map fun c => c.toJson.document := by
    induction specs with
    | nil => rfl
    | cons s rest ih => rw [toJsonOfAll, Json.documents, ih, List.map_cons]
  rw [toJson, Json.document]
  cases evaluation <;> cases children <;> simp [Json.namedDocuments, Json.document, all]

theorem ofDocument?_fields (s : TreeSpec) (n : Nat) : ofDocument? (n + 1) s.toJson.document =
    (if s.children = [] then some []
      else ofDocument?.childrenOf? n (.list (s.children.map fun c => c.toJson.document))).map
        fun children => { s with children } := by
  obtain ⟨label, evaluation, children⟩ := s
  rw [document_fields, ofDocument?]
  by_cases leaf : children = []
  · cases evaluation <;> simp [leaf, evaluationOf?, Json.asNumber]
  · cases below : ofDocument?.childrenOf? n (.list (children.map fun c => c.toJson.document)) <;>
      cases evaluation <;> simp [leaf, evaluationOf?, Json.asNumber, below]

theorem height_lt_iff {s : TreeSpec} (inner : s.children ≠ []) (n : Nat) :
    2 * s.height < n + 2 ↔ ∀ c ∈ s.children, 2 * c.height < n := by
  have all {specs : List TreeSpec} (there : specs ≠ []) :
      2 * heightOfAll specs < n + 2 ↔ ∀ c ∈ specs, 2 * c.height < n := by
    induction specs with
    | nil => exact absurd rfl there
    | cons s rest ih =>
      rw [heightOfAll, List.forall_mem_cons]
      cases rest with
      | nil =>
        rw [heightOfAll]
        simp only [List.not_mem_nil, false_implies, implies_true, and_true]
        omega
      | cons next rest =>
        rw [← ih (List.cons_ne_nil _ _)]
        omega
  obtain ⟨label, evaluation, children⟩ := s
  rw [height]
  exact all inner

theorem mapM_children {read : Json.Document → Option TreeSpec} {write : TreeSpec → Json.Document} {p : TreeSpec → Prop}
    [DecidablePred p] {specs : List TreeSpec} (reads : ∀ s ∈ specs, read (write s) = if p s then some s else none) :
    (specs.map write).mapM read = if ∀ s ∈ specs, p s then some specs else none := by
  induction specs with
  | nil => rfl
  | cons s rest ih =>
    obtain ⟨first, later⟩ := List.forall_mem_cons.mp reads
    rw [List.map_cons, List.mapM_cons, first, ih later]
    by_cases here : p s
    · by_cases below : ∀ s ∈ rest, p s
      · rw [if_pos here, if_pos below, if_pos (List.forall_mem_cons.mpr ⟨here, below⟩)]
        rfl
      · rw [if_pos here, if_neg below, if_neg fun all => below (List.forall_mem_cons.mp all).2]
        rfl
    · rw [if_neg here, if_neg fun all => here (List.forall_mem_cons.mp all).1]
      rfl

/-- Two containers are needed for every level but the last, which needs one. -/
theorem ofDocument?_document (s : TreeSpec) (n : Nat) :
    ofDocument? n s.toJson.document = if 2 * s.height < n then some s else none := by
  induction s generalizing n with
  | node label evaluation children ih =>
    cases n with
    | zero => rfl
    | succ n =>
      rw [ofDocument?_fields]
      by_cases leaf : children = []
      · have flat : (⟨label, evaluation, children⟩ : TreeSpec).height = 0 := by rw [height, leaf, heightOfAll]
        rw [if_pos leaf, flat, if_pos (by omega), leaf]
        rfl
      · rw [if_neg leaf]
        cases n with
        | zero =>
          have deep : ¬2 * (⟨label, evaluation, children⟩ : TreeSpec).height < 0 + 1 := by
            obtain ⟨c, hc⟩ := List.exists_mem_of_ne_nil children leaf
            have hlt : c.height < (⟨label, evaluation, children⟩ : TreeSpec).height := height_lt hc
            omega
          rw [if_neg deep]
          rfl
        | succ n =>
          rw [ofDocument?.childrenOf?, mapM_children fun c hc => ih c hc n]
          by_cases shallow : ∀ c ∈ children, 2 * c.height < n
          · rw [if_pos shallow, if_pos ((height_lt_iff leaf n).mpr shallow)]
            rfl
          · rw [if_neg shallow, if_neg fun h => shallow ((height_lt_iff leaf n).mp h)]
            rfl

/-- A description whose evaluations are read back from their words. -/
def Legible (s : TreeSpec) : Prop :=
  ∀ node ∈ s.preorder, ∀ x, node.evaluation = some x → Json.Word x.jsonText.toList (.number (some (.float x)))

theorem Legible.toJson {s : TreeSpec} (h : s.Legible) : s.toJson.Legible := by
  induction s with
  | node label evaluation children ih =>
    rw [Legible, preorder, preorderOfAll_eq] at h
    obtain ⟨here, below⟩ := List.forall_mem_cons.mp h
    rw [toJson_eq]
    refine .record fun f hf => ?_
    simp only [fields, List.mem_cons, List.mem_append, Option.mem_toList, Option.map_eq_some_iff] at hf
    rcases hf with rfl | ⟨x, hx, rfl⟩ | hf
    · exact .text label
    · exact .float (here x hx)
    · split at hf
      · cases hf
      · obtain rfl := List.mem_singleton.mp hf
        rw [toJsonOfAll_eq]
        refine .list (List.forall_mem_map.mpr fun c hc => ?_)
        exact ih c hc fun node hnode => below node (List.mem_flatMap.mpr ⟨c, hc, hnode⟩)

/-- The text of a file with a description. -/
def file (s : TreeSpec) : String := s.toJson.pretty "" ++ "\n"

theorem Legible.parseSpec?_file {s : TreeSpec} (h : s.Legible) :
    CommandLine.parseSpec? s.file = if s.height ≤ 63 then some s else none := by
  rw [CommandLine.parseSpec?, file, h.toJson.parse?_pretty]
  dsimp only [Option.bind_eq_bind, Option.bind_some]
  rw [ofDocument?_document, Json.maxNesting]
  refine if_congr ?_ rfl rfl
  omega

theorem Complete.height {branching : Nat} (pos : branching ≠ 0) {depth : Nat} {s : TreeSpec}
    (complete : Complete branching depth s) : s.height = depth := by
  induction depth generalizing s with
  | zero =>
    obtain ⟨label, evaluation, children⟩ := s
    rw [TreeSpec.height, show children = [] from complete, heightOfAll]
  | succ depth ih =>
    have all {specs : List TreeSpec} (there : specs ≠ []) (below : ∀ c ∈ specs, c.height = depth) :
        heightOfAll specs = depth + 1 := by
      clear complete
      induction specs with
      | nil => exact absurd rfl there
      | cons c rest ihrest =>
        obtain ⟨first, later⟩ := List.forall_mem_cons.mp below
        rw [heightOfAll, first]
        cases rest with
        | nil => rfl
        | cons next rest => rw [ihrest (List.cons_ne_nil _ _) later, Nat.max_self]
    obtain ⟨label, evaluation, children⟩ := s
    rw [TreeSpec.height]
    refine all (fun leaf => pos ?_) fun c hc => ih (complete.2 c hc)
    rw [← complete.1, leaf]
    rfl

theorem random_height (seed : UInt64) (depth : Nat) {branching : Nat} (pos : branching ≠ 0) :
    (random seed depth branching).height = depth :=
  (grow_complete depth "root" (Generator.ofSeed seed)).height pos

theorem random_legible (seed : UInt64) (depth branching : Nat) : (random seed depth branching).Legible := by
  intro node hnode x hx
  obtain ⟨i, rfl, low, high⟩ := (random_evaluated seed depth node hnode).range x hx
  exact Json.word_evaluation low high

end TreeSpec

namespace CommandLine

/-! ### Folders -/

namespace Folder

variable {F F' : Folder}

/-- Outside the folder it does not matter what is in it, and nothing there keeps a text. -/
theorem find_outside (F F' : Folder) {site : Site} (outside : site ≠ .here) (part : String) :
    F'.find site part = F.find site part ∧ (∀ name text, F.find site part ≠ .entry name text) ∧
      F.find site part ≠ .device .file := by
  have kept : ∀ sink ∈ devices.lookup part, sink ≠ .file := by
    have all : ∀ device ∈ devices, device.2 ≠ .file := by simp [devices]
    intro sink hsink
    obtain ⟨before, after, split, -⟩ := List.lookup_eq_some_iff.mp hsink
    exact all (part, sink) (split ▸ by simp)
  refine ⟨?_, ?_⟩
  · cases site <;> first | rfl | exact absurd rfl outside
  · cases site with
    | here => exact absurd rfl outside
    | around => exact ⟨nofun, nofun⟩
    | root =>
      rw [find]
      split <;> exact ⟨nofun, nofun⟩
    | system folder =>
      rw [find]
      split
      · cases hd : devices.lookup part with
        | none => exact ⟨nofun, nofun⟩
        | some sink => exact ⟨nofun, fun same => kept sink hd (Place.device.inj same)⟩
      · exact ⟨nofun, nofun⟩

/-- Where a path leads to a name in the folder, it does so whatever texts are in it. -/
theorem walk_entry {site : Site} {parts : List (List Char)} {name : String} {text : Option String}
    (h : F.walk site parts = .ok (.entry name text)) : F'.walk site parts = .ok (.entry name (F'.file? name)) := by
  induction parts generalizing site with
  | nil => cases h
  | cons part rest ih =>
    rw [walk] at h ⊢
    split at h
    · rename_i idle
      rw [if_pos idle]
      exact ih h
    · rename_i idle
      rw [if_neg idle]
      split at h
      · rename_i up
        rw [if_pos up]
        exact ih h
      · rename_i up
        rw [if_neg up]
        split at h
        · cases h
        · rename_i short
          rw [if_neg short]
          -- Names are looked up in the folder only where the path has come to it; elsewhere texts do not matter.
          by_cases inside : site = .here
          · subst inside
            rw [find] at h ⊢
            dsimp only at h ⊢
            split at h
            · rename_i last
              rw [if_pos last]
              cases h
              rfl
            · cases h
          · obtain ⟨same, noEntry, -⟩ := F.find_outside F' inside (String.ofList part)
            rw [same]
            cases hfound : F.find site (String.ofList part) with
            | folder inner =>
              rw [hfound] at h
              exact ih h
            | entry name text => exact absurd hfound (noEntry name text)
            | device sink =>
              rw [hfound] at h
              dsimp only at h
              split at h <;> cases h
            | unknown =>
              rw [hfound] at h
              dsimp only at h
              split at h <;> cases h

theorem walk_device {site : Site} {parts : List (List Char)} : F.walk site parts ≠ .ok (.device .file) := by
  induction parts generalizing site with
  | nil => rw [walk]; nofun
  | cons part rest ih =>
    rw [walk]
    split
    · exact ih
    · split
      · exact ih
      · split
        · nofun
        · by_cases inside : site = .here
          · subst inside
            rw [find]
            dsimp only
            split <;> nofun
          · obtain ⟨-, -, noFile⟩ := F.find_outside F inside (String.ofList part)
            cases hfound : F.find site (String.ofList part) with
            | folder inner => exact ih
            | entry name text => dsimp only; split <;> nofun
            | device sink =>
              dsimp only
              split
              · exact fun same => noFile (hfound.trans (Except.ok.inj same))
              · nofun
            | unknown => dsimp only; split <;> nofun

theorem locate_entry {path name : String} {text : Option String} (h : F.locate path = .ok (.entry name text)) :
    F'.locate path = .ok (.entry name (F'.file? name)) := by
  unfold locate at h ⊢
  cases hlength : checkLength path with
  | error e =>
    rw [hlength] at h
    cases h
  | ok u =>
    rw [hlength] at h
    exact walk_entry h

theorem entry_of_create {path : String} (h : F.create path = .ok .file) :
    ∃ name text, F.locate path = .ok (.entry name text) := by
  unfold create at h
  cases hlength : checkLength path with
  | error e =>
    rw [hlength] at h
    cases h
  | ok u =>
    simp only [hlength, bind, Except.bind] at h
    split at h
    · split at h <;> cases h
    · split at h
      · cases h
      · rename_i place hplace
        cases place with
        | folder site => cases h
        | entry name text => exact ⟨name, text, hplace⟩
        | device sink =>
          rw [show sink = .file from Except.ok.inj h, locate, hlength] at hplace
          exact absurd hplace walk_device
        | unknown => cases h

/-- What is written to a file that can be created is read from it. -/
theorem read_write {path : String} (h : F.create path = .ok .file) (text : String) :
    (F.write path text).read path = .ok (some text) := by
  obtain ⟨name, old, hplace⟩ := entry_of_create h
  have written : (F.write path text).file? name = some text := by
    rw [write, hplace, file?, List.lookup_cons_self]
  rw [read, locate_entry hplace, written]
  rfl

end Folder

end CommandLine

end Rationale
