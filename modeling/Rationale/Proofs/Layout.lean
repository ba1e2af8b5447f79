import Mathlib.Data.List.Basic
import Rationale.GameTree.Basic

/-!
Descriptions in their layout. Every description inside a description stands at a place of the layout, and every
place is one where a description stands; its entry there has the label, the evaluation, the relatives and the depth
it has in the description.
-/

namespace Rationale.TreeSpec

@[elab_as_elim, induction_eliminator]
theorem induct {motive : TreeSpec → Prop} (node : ∀ label evaluation children,
    (∀ c ∈ children, motive c) → motive ⟨label, evaluation, children⟩) (s : TreeSpec) : motive s :=
  @TreeSpec.rec motive (fun specs => ∀ c ∈ specs, motive c) node
    (fun _ h => by cases h) (fun _ _ h ih => List.forall_mem_cons.mpr ⟨h, ih⟩) s

mutual

/-- How many steps the longest branch has. -/
def height : TreeSpec → Nat
  | ⟨_, _, children⟩ => heightOfAll children

/-- How many steps the longest branch has that starts above the descriptions. -/
def heightOfAll : List TreeSpec → Nat
  | [] => 0
  | s :: rest => max (s.height + 1) (heightOfAll rest)

end

theorem height_lt {s c : TreeSpec} (h : c ∈ s.children) : c.height < s.height := by
  have above : ∀ {specs : List TreeSpec}, c ∈ specs → c.height < heightOfAll specs := by
    intro specs hc
    induction specs with
    | nil => cases hc
    | cons s rest ih =>
      rw [heightOfAll]
      rcases List.mem_cons.mp hc with rfl | hc
      · exact Nat.lt_of_lt_of_le (Nat.lt_succ_self _) (Nat.le_max_left _ _)
      · exact Nat.lt_of_lt_of_le (ih hc) (Nat.le_max_right _ _)
  obtain ⟨label, evaluation, children⟩ := s
  rw [height]
  exact above h

theorem size_eq (s : TreeSpec) : s.size = (preorderOfAll s.children).length + 1 := by
  obtain ⟨label, evaluation, children⟩ := s
  rw [size, preorder, List.length_cons]

theorem length_preorderOfAll_cons (s : TreeSpec) (rest : List TreeSpec) :
    (preorderOfAll (s :: rest)).length = s.size + (preorderOfAll rest).length := by
  rw [preorderOfAll, List.length_append, size]

/-- Descriptions laid out one after the other, with their places. -/
def placed (start : Nat) (specs : List TreeSpec) : List (Nat × TreeSpec) := (places start specs).zip specs

@[simp] theorem placed_nil (start : Nat) : placed start [] = [] := rfl

@[simp] theorem placed_cons (start : Nat) (s : TreeSpec) (rest : List TreeSpec) :
    placed start (s :: rest) = (start, s) :: placed (start + s.size) rest := rfl

theorem map_fst_placed (start : Nat) (specs : List TreeSpec) : (placed start specs).map (·.1) = places start specs := by
  induction specs generalizing start with
  | nil => rfl
  | cons s rest ih => rw [placed_cons, List.map_cons, ih, places]

theorem map_snd_placed (start : Nat) (specs : List TreeSpec) : (placed start specs).map (·.2) = specs := by
  induction specs generalizing start with
  | nil => rfl
  | cons s rest ih => rw [placed_cons, List.map_cons, ih]

theorem mem_placed {start place : Nat} {s : TreeSpec} {specs : List TreeSpec} (h : (place, s) ∈ placed start specs) :
    s ∈ specs ∧ start ≤ place := by
  induction specs generalizing start with
  | nil => cases h
  | cons s' rest ih =>
    rw [placed_cons] at h
    rcases List.mem_cons.mp h with h | h
    · cases h
      exact ⟨List.mem_cons_self, Nat.le_refl _⟩
    · obtain ⟨hs, hle⟩ := ih h
      exact ⟨List.mem_cons_of_mem _ hs, by omega⟩

theorem pairwise_places (start : Nat) (specs : List TreeSpec) : (places start specs).Pairwise (· < ·) := by
  induction specs generalizing start with
  | nil => exact .nil
  | cons s rest ih =>
    refine .cons (fun place hplace => ?_) (ih (start + s.size))
    rw [← map_fst_placed] at hplace
    obtain ⟨⟨_, s'⟩, hs', rfl⟩ := List.mem_map.mp hplace
    have hle := (mem_placed hs').2
    have hsize := s.size_eq
    dsimp only
    omega

/-- Between the first place and the last one every place belongs to one of the descriptions. -/
theorem exists_placed {start i : Nat} {specs : List TreeSpec} (hstart : start ≤ i)
    (hend : i < start + (preorderOfAll specs).length) :
    ∃ place s, (place, s) ∈ placed start specs ∧ place ≤ i ∧ i < place + s.size := by
  induction specs generalizing start with
  | nil =>
    rw [preorderOfAll, List.length_nil] at hend
    omega
  | cons s rest ih =>
    rw [length_preorderOfAll_cons] at hend
    by_cases hi : i < start + s.size
    · exact ⟨start, s, by rw [placed_cons]; exact List.mem_cons_self, hstart, hi⟩
    · have hstart : start + s.size ≤ i := by omega
      obtain ⟨place, s', hmem, hle, hlt⟩ := ih hstart (by omega)
      exact ⟨place, s', by rw [placed_cons]; exact List.mem_cons_of_mem _ hmem, hle, hlt⟩

/-- The entry of the node that a description starts with. -/
def entryAt (s : TreeSpec) (parent : Option Nat) (depth start : Nat) : TreeEntry where
  label := s.label
  evaluation := s.evaluation
  parent := parent
  children := places (start + 1) s.children
  depth := depth
  score := s.evaluation.getD (Number.zero false)
  scoreChild := none

theorem entryAt_children (s : TreeSpec) (parent : Option Nat) (depth start : Nat) :
    (s.entryAt parent depth start).children = (placed (start + 1) s.children).map (·.1) :=
  (map_fst_placed _ _).symm

theorem lay_eq (s : TreeSpec) (parent : Option Nat) (depth start : Nat) : s.lay parent depth start
    = s.entryAt parent depth start :: layAll (some start) (depth + 1) (start + 1) s.children := by
  obtain ⟨label, evaluation, children⟩ := s
  rw [lay]
  rfl

theorem length_lay (s : TreeSpec) (parent : Option Nat) (depth start : Nat) :
    (s.lay parent depth start).length = s.size := by
  induction s generalizing parent depth start with
  | node label evaluation children ih =>
    have all : ∀ (specs : List TreeSpec), (∀ c ∈ specs, c ∈ children) → ∀ parent depth start,
        (layAll parent depth start specs).length = (preorderOfAll specs).length := by
      intro specs hsub
      induction specs with
      | nil => exact fun _ _ _ => rfl
      | cons s rest ihrest =>
        intro parent depth start
        rw [layAll, List.length_append, length_preorderOfAll_cons, ih s (hsub s List.mem_cons_self),
          ihrest fun c hc => hsub c (List.mem_cons_of_mem _ hc)]
    rw [lay_eq, List.length_cons, size_eq, all children fun _ hc => hc]

theorem layAll_eq (parent : Option Nat) (depth start : Nat) (specs : List TreeSpec) :
    layAll parent depth start specs = (placed start specs).flatMap fun x => x.2.lay parent depth x.1 := by
  induction specs generalizing start with
  | nil => rfl
  | cons s rest ih => rw [layAll, ih, placed_cons, List.flatMap_cons]

theorem preorderOfAll_placed (start : Nat) (specs : List TreeSpec) :
    preorderOfAll specs = (placed start specs).flatMap fun x => x.2.preorder := by
  induction specs generalizing start with
  | nil => rfl
  | cons s rest ih => rw [preorderOfAll, ih (start + s.size), placed_cons, List.flatMap_cons]

/-- Where a list has as many elements for each description as that has nodes, those for a description are in its
place. -/
theorem starts_placed {α : Type} {f : Nat × TreeSpec → List α} (sizes : ∀ x, (f x).length = x.2.size)
    {start place : Nat} {s : TreeSpec} {specs : List TreeSpec} (h : (place, s) ∈ placed start specs) :
    f (place, s) <+: ((placed start specs).flatMap f).drop (place - start) := by
  induction specs generalizing start with
  | nil => cases h
  | cons s' rest ih =>
    rw [placed_cons] at h ⊢
    rw [List.flatMap_cons]
    rcases List.mem_cons.mp h with h | h
    · cases h
      rw [Nat.sub_self, List.drop_zero]
      exact List.prefix_append _ _
    · have hle := (mem_placed h).2
      rw [List.drop_append, sizes, List.drop_eq_nil_of_le (by rw [sizes]; dsimp only; omega), List.nil_append]
      dsimp only
      rw [show place - start - s'.size = place - (start + s'.size) by omega]
      exact ih h

/-! ### Standing -/

/-- A description stands at a place of the layout of `root`, with its parent at a place or none, at a depth. -/
inductive Stands (root : TreeSpec) : Nat → Option Nat → Nat → TreeSpec → Prop
  | root : root.Stands 0 none 0 root
  | child {place place' depth : Nat} {parent : Option Nat} {s c : TreeSpec} (h : root.Stands place parent depth s)
      (hc : (place', c) ∈ placed (place + 1) s.children) : root.Stands place' (some place) (depth + 1) c

namespace Stands

variable {root s : TreeSpec} {place depth : Nat} {parent : Option Nat}

/-- What is laid out for a description, node by node with the children after their parent, is in its place. -/
theorem starts {α : Type} (lays : Nat → Option Nat → Nat → TreeSpec → List α)
    (sizes : ∀ place parent depth s, (lays place parent depth s).length = s.size)
    (unfolds : ∀ place parent depth s, ∃ x, lays place parent depth s
      = x :: (placed (place + 1) s.children).flatMap fun c => lays c.1 (some place) (depth + 1) c.2)
    (h : root.Stands place parent depth s) :
    lays place parent depth s <+: (lays 0 none 0 root).drop place := by
  induction h with
  | root => exact List.prefix_refl _
  | @child place place' depth parent s c _ hc ih =>
    obtain ⟨after, hafter⟩ := ih
    obtain ⟨x, hx⟩ := unfolds place parent depth s
    have hle := (mem_placed hc).2
    have inner := starts_placed (f := fun c => lays c.1 (some place) (depth + 1) c.2) (fun _ => sizes _ _ _ _) hc
    have hdrop : (lays 0 none 0 root).drop place' = ((lays 0 none 0 root).drop place).drop (place' - place) := by
      rw [List.drop_drop, show place + (place' - place) = place' by omega]
    rw [hdrop, ← hafter, hx, List.cons_append, show place' - place = (place' - (place + 1)) + 1 by omega,
      List.drop_succ_cons, List.drop_append]
    exact inner.trans (List.prefix_append _ _)

theorem entry (h : root.Stands place parent depth s) :
    (root.lay none 0 0)[place]? = some (s.entryAt parent depth place) := by
  have laid := h.starts (fun place parent depth s => s.lay parent depth place)
    (fun place parent depth s => length_lay s parent depth place)
    fun place parent depth s => ⟨_, (lay_eq s parent depth place).trans (by rw [layAll_eq])⟩
  obtain ⟨after, hafter⟩ := laid
  have head : ((root.lay none 0 0).drop place)[0]? = some (s.entryAt parent depth place) := by
    rw [← hafter, lay_eq]
    rfl
  rwa [List.getElem?_drop, Nat.add_zero] at head

theorem getElem?_preorder (h : root.Stands place parent depth s) : root.preorder[place]? = some s := by
  have unfolds (place : Nat) (s : TreeSpec) : s.preorder
      = s :: (placed (place + 1) s.children).flatMap fun c => c.2.preorder := by
    obtain ⟨label, evaluation, children⟩ := s
    rw [preorder, preorderOfAll_placed (place + 1)]
  obtain ⟨after, hafter⟩ := h.starts (fun _ _ _ s => s.preorder) (fun _ _ _ _ => rfl)
    fun place _ _ s => ⟨s, unfolds place s⟩
  have head : (root.preorder.drop place)[0]? = some s := by
    rw [← hafter, unfolds place s]
    rfl
  rwa [List.getElem?_drop, Nat.add_zero] at head

/-- A place is read off its entry, whatever description is said to stand there. -/
theorem entryAt_unique (h : root.Stands place parent depth s) {parent' : Option Nat} {depth' : Nat} {s' : TreeSpec}
    (h' : root.Stands place parent' depth' s') : s.entryAt parent depth place = s'.entryAt parent' depth' place :=
  Option.some.inj (h.entry.symm.trans h'.entry)

theorem depth_add_height_le (h : root.Stands place parent depth s) : depth + s.height ≤ root.height := by
  induction h with
  | root => exact Nat.le_of_eq (Nat.zero_add _)
  | child h hc ih =>
    have := height_lt (mem_placed hc).1
    omega

theorem of_parent {q : Nat} (h : root.Stands place (some q) depth s) : ∃ parent depth' s',
    root.Stands q parent depth' s' ∧ depth = depth' + 1 ∧ (place, s) ∈ placed (q + 1) s'.children := by
  cases h with
  | child h hc => exact ⟨_, _, _, h, rfl, hc⟩

theorem exists_parent (h : root.Stands place parent depth s) (hne : place ≠ 0) : ∃ q, parent = some q := by
  cases h with
  | root => exact absurd rfl hne
  | child h hc => exact ⟨_, rfl⟩

/-- Inside a description every place is one where a description stands. -/
theorem cover (h : root.Stands place parent depth s) {i : Nat} (hle : place ≤ i) (hlt : i < place + s.size) :
    ∃ parent depth s, root.Stands i parent depth s := by
  induction s generalizing place parent depth with
  | node label evaluation children ih =>
    rcases Nat.eq_or_lt_of_le hle with rfl | hi
    · exact ⟨_, _, _, h⟩
    · rw [size_eq] at hlt
      dsimp only at hlt
      have hend : i < place + 1 + (preorderOfAll children).length := by omega
      obtain ⟨place', c, hc, hle', hlt'⟩ := exists_placed hi hend
      exact ih c (mem_placed hc).1 (h.child hc) hle' hlt'

end Stands

theorem exists_stands (root : TreeSpec) {i : Nat} (h : i < root.size) : ∃ parent depth s, root.Stands i parent depth s :=
  Stands.root.cover (Nat.zero_le i) (by rwa [Nat.zero_add])

end Rationale.TreeSpec
