import Mathlib.Data.List.Induction
import Rationale.Proofs.Entries

/-!
The traversals of a proof see the same tree. A pass from the root down that replaces nothing and one from the leaves up
that changes nothing leave the proof as it was, and show what is at each of its places once: the first before what is
inside the place, the second after that. What a proof claims is read off in the second order.
-/

namespace Rationale

section Looking
variable {m : Type → Type} [Monad m] [LawfulMonad m] {α : Type}

theorem forM_flatMap {β : Type} (look : β → m Unit) (items : List α) (f : α → List β) :
    forM (items.flatMap f) look = forM items fun x => forM (f x) look := by
  induction items with
  | nil => rfl
  | cons x rest ih => rw [List.flatMap_cons, List.forM_append, ih, List.forM_cons]

/-- Items that are looked at one by one stay as they are. -/
theorem mapM_eq_forM {f : α → m α} {look : α → m Unit} {items : List α}
    (h : ∀ x ∈ items, f x = do look x; return x) : items.mapM f = do forM items look; return items := by
  induction items with
  | nil => simp
  | cons x rest ih =>
    obtain ⟨first, others⟩ := List.forall_mem_cons.mp h
    rw [List.mapM_cons, first, ih others, List.forM_cons]
    simp

end Looking

namespace Proof

section Monadic
variable {m : Type → Type} [Monad m] [LawfulMonad m]

theorem rewriteAllM_eq (f : Proof → m (Option Proof)) (items : List Proof) :
    rewriteAllM f items = items.mapM (rewriteM f) := by
  induction items with
  | nil => rfl
  | cons p rest ih => rw [rewriteAllM, ih, List.mapM_cons]

theorem rewriteMembersM_eq (f : Proof → m (Option Proof)) (members : List (Member Proof)) :
    rewriteMembersM f members = members.mapM (Member.mapM (rewriteM f)) := by
  induction members with
  | nil => rfl
  | cons x rest ih => rw [rewriteMembersM, ih, List.mapM_cons, Member.mapM]; simp

theorem transformAllUpM_eq (f : Proof → m Proof) (items : List Proof) :
    transformAllUpM f items = items.mapM (transformUpM f) := by
  induction items with
  | nil => rfl
  | cons p rest ih => rw [transformAllUpM, ih, List.mapM_cons]

theorem transformMembersUpM_eq (f : Proof → m Proof) (members : List (Member Proof)) :
    transformMembersUpM f members = members.mapM (Member.mapM (transformUpM f)) := by
  induction members with
  | nil => rfl
  | cons x rest ih => rw [transformMembersUpM, ih, List.mapM_cons, Member.mapM]; simp

/-- From the root down, the parts of a node that is left alone are rewritten one after the other. -/
theorem rewriteM_eq (f : Proof → m (Option Proof)) (p : Proof) :
    rewriteM f p = f p >>= (·.elim (mapChildrenM (rewriteM f) p) pure) := by
  cases p with
  | conditional owner c branch =>
    rw [rewriteM]
    refine bind_congr fun found => ?_
    cases found <;> cases branch <;> simp [mapChildrenM]
  | group c membership members n d o =>
    rw [rewriteM]
    refine bind_congr fun found => ?_
    cases found <;> cases membership <;> simp [mapChildrenM, rewriteMembersM_eq]
  | _ =>
    simp only [rewriteM]
    refine bind_congr fun found => ?_
    cases found <;> simp [mapChildrenM, rewriteAllM_eq]

/-- From the leaves up, a node is seen after its parts were rewritten one after the other. -/
theorem transformUpM_eq (f : Proof → m Proof) (p : Proof) :
    transformUpM f p = mapChildrenM (transformUpM f) p >>= f := by
  cases p with
  | conditional owner c branch => cases branch <;> simp [transformUpM, mapChildrenM]
  | group c membership members n d o => cases membership <;> simp [transformUpM, mapChildrenM, transformMembersUpM_eq]
  | _ => simp [transformUpM, mapChildrenM, transformAllUpM_eq]

/-- A node of which the parts are looked at one after the other stays as it is. -/
theorem mapChildrenM_eq_forM {f : Proof → m Proof} {p : Proof} (look : Proof → m Unit)
    (h : ∀ q ∈ p.children, f q = do look q; return q) : mapChildrenM f p = do forM p.children look; return p := by
  cases p with
  | conj items =>
    have each : ∀ q ∈ items, f q = do look q; return q := h
    simp [mapChildrenM, mapM_eq_forM each, children]
  | implies p c d o => simp [mapChildrenM, h p List.mem_cons_self, children]
  | conditional owner c branch =>
    obtain ⟨first, second⟩ := List.forall_mem_cons.mp h
    cases branch with
    | none => simp [mapChildrenM, first, children]
    | some q => simp [mapChildrenM, first, second q List.mem_cons_self, children]
  | group c membership members n d o =>
    obtain ⟨first, others⟩ := List.forall_mem_append.mp h
    have each : ∀ x ∈ members, Member.mapM f x = do look x.proof; return x := by
      intro x hx
      rw [Member.mapM, others x.proof (List.mem_map_of_mem hx)]
      simp
    cases membership with
    | none => simp [mapChildrenM, mapM_eq_forM each, children, List.forM_map]
    | some q => simp [mapChildrenM, first q List.mem_cons_self, mapM_eq_forM each, children, List.forM_map]
  | annotated p note => simp [mapChildrenM, h p List.mem_cons_self, children]
  | _ => simp [mapChildrenM, children]

/-- A pass from the root down that leaves every node alone shows a node before its parts. -/
theorem rewriteM_eq_forM (look : Proof → m Unit) (p : Proof) :
    rewriteM (fun q => do look q; return none) p = do forM p.preorder look; return p := by
  induction p using induct_children with
  | step p ih =>
    rw [rewriteM_eq, mapChildrenM_eq_forM _ ih, preorder_eq_children, List.forM_cons, forM_flatMap]
    simp

end Monadic

/-! ### Parts before what they are parts of -/

mutual

/-- Every node of a proof, children before parents. -/
def postorder : Proof → List Proof
  | .claim c => [.claim c]
  | .assumption t => [.assumption t]
  | .failure t => [.failure t]
  | .conj items => postorderOfAll items ++ [.conj items]
  | .implies p c d o => p.postorder ++ [.implies p c d o]
  | .conditional o c branch =>
    c.postorder ++ (match branch with
      | none => []
      | some p => p.postorder) ++ [.conditional o c branch]
  | .group c membership members n d o =>
    (match membership with
      | none => []
      | some p => p.postorder) ++ postorderOfMembers members ++ [.group c membership members n d o]
  | .annotated p note => p.postorder ++ [.annotated p note]

def postorderOfAll : List Proof → List Proof
  | [] => []
  | p :: rest => p.postorder ++ postorderOfAll rest

def postorderOfMembers : List (Member Proof) → List Proof
  | [] => []
  | ⟨_, _, p⟩ :: rest => p.postorder ++ postorderOfMembers rest

end

theorem postorderOfAll_eq (items : List Proof) : postorderOfAll items = items.flatMap postorder := by
  induction items with
  | nil => rfl
  | cons p rest ih => simp [postorderOfAll, ih]

theorem postorderOfMembers_eq (members : List (Member Proof)) :
    postorderOfMembers members = members.flatMap (·.proof.postorder) := by
  induction members with
  | nil => rfl
  | cons x rest ih => simp [postorderOfMembers, ih]

theorem postorder_eq_children (p : Proof) : p.postorder = p.children.flatMap postorder ++ [p] := by
  cases p with
  | conj items => simp [postorder, postorderOfAll_eq, children]
  | conditional owner c branch => cases branch <;> simp [postorder, children]
  | group c membership members n d o =>
    cases membership <;> simp [postorder, postorderOfMembers_eq, children, List.flatMap_map]
  | _ => simp [postorder, children]

/-- A pass from the leaves up that changes nothing shows a node after its parts. -/
theorem transformUpM_eq_forM {m : Type → Type} [Monad m] [LawfulMonad m] (look : Proof → m Unit) (p : Proof) :
    transformUpM (fun q => do look q; return q) p = do forM p.postorder look; return p := by
  induction p using induct_children with
  | step p ih =>
    rw [transformUpM_eq, mapChildrenM_eq_forM _ ih, postorder_eq_children, List.forM_append, forM_flatMap]
    simp

/-- What a proof claims is what its nodes state, parts before what they are parts of. -/
theorem claims_eq_postorder (p : Proof) : p.claims = p.postorder.filterMap fun q => q.own?.bind Entry.claim? := by
  induction p using induct_children with
  | step p ih =>
    rw [claims_eq_children, postorder_eq_children, List.filterMap_append, List.filterMap_flatMap,
      List.flatMap_congr ih]
    cases h : p.own?.bind Entry.claim? <;> simp [h]

/-- A look that writes down what it sees. -/
def note (p : Proof) : StateM (List Proof) Unit := modify (· ++ [p])

theorem forM_note (items seen : List Proof) : (forM items note).run seen = ((), seen ++ items) := by
  induction items generalizing seen with
  | nil => rw [List.append_nil]; rfl
  | cons p rest ih =>
    rw [List.forM_cons, StateT.run_bind]
    exact (ih (seen ++ [p])).trans (by rw [List.append_assoc, List.singleton_append])

theorem run_forM_note (p : Proof) (items seen : List Proof) :
    (do forM items note; return p : StateM (List Proof) Proof).run seen = (p, seen ++ items) := by
  rw [StateT.run_bind, forM_note]
  rfl

/-! ### Places -/

/-- The proof at a place: the root at the empty one, and under it at `i :: place` what its part `i` has at `place`. -/
def at? : List Nat → Proof → Option Proof
  | [], p => some p
  | i :: place, p => p.children[i]?.bind (at? place)

/-- The proof at a place among `items`, of which the first number picks the item. -/
def among? (items : List Proof) : List Nat → Option Proof
  | [] => none
  | i :: place => items[i]?.bind (at? place)

/-- One place closes before another: it lies inside the other, or to the left of it. -/
inductive Closes : List Nat → List Nat → Prop
  | inside (i : Nat) (place : List Nat) : Closes (i :: place) []
  | left {i j : Nat} (h : i < j) (place place' : List Nat) : Closes (i :: place) (j :: place')
  | deeper (i : Nat) {place place' : List Nat} (h : Closes place place') : Closes (i :: place) (i :: place')

theorem Closes.irrefl {place : List Nat} : ¬Closes place place := by
  induction place with
  | nil => nofun
  | cons i place ih =>
    intro h
    cases h with
    | left h => exact Nat.lt_irrefl i h
    | deeper _ h => exact ih h

/-- An order of places that goes through the parts of a node from left to right, and stays inside each. -/
structure Sweeps (before : List Nat → List Nat → Prop) : Prop where
  irrefl : ∀ place, ¬before place place
  left : ∀ {i j : Nat}, i < j → ∀ place place', before (i :: place) (j :: place')
  deeper : ∀ (i : Nat) {place place' : List Nat}, before place place' → before (i :: place) (i :: place')

theorem sweeps_lt : Sweeps (· < ·) where
  irrefl _ := List.lt_irrefl _
  left h _ _ := .rel h
  deeper _ _ _ h := .cons h

theorem sweeps_closes : Sweeps Closes where
  irrefl _ := Closes.irrefl
  left h := .left h
  deeper i _ _ h := .deeper i h

/-- `nodes` are what `find` has at its places: each place once, in the order of `before`. -/
structure Tour (before : List Nat → List Nat → Prop) (find : List Nat → Option Proof) (nodes : List Proof)
    (places : List (List Nat)) : Prop where
  once : places.Nodup
  ordered : places.Pairwise before
  everywhere : ∀ place, place ∈ places ↔ (find place).isSome
  shown : nodes.map some = places.map find

theorem Sweeps.nodup {before : List Nat → List Nat → Prop} (sweeps : Sweeps before) {places : List (List Nat)}
    (h : places.Pairwise before) : places.Nodup := by
  refine h.imp ?_
  rintro place _ hb rfl
  exact sweeps.irrefl place hb

theorem exists_of_among? {items : List Proof} {place : List Nat} (h : (among? items place).isSome) :
    ∃ i rest, i < items.length ∧ place = i :: rest := by
  cases place with
  | nil => simp [among?] at h
  | cons i rest =>
    refine ⟨i, rest, ?_, rfl⟩
    by_contra out
    simp [among?, List.getElem?_eq_none (Nat.le_of_not_lt out)] at h

theorem among?_init {items : List Proof} {i : Nat} (h : i < items.length) (q : Proof) (place : List Nat) :
    among? (items ++ [q]) (i :: place) = among? items (i :: place) := by
  rw [among?, among?, List.getElem?_append_left h]

theorem among?_last (items : List Proof) (q : Proof) (place : List Nat) :
    among? (items ++ [q]) (items.length :: place) = at? place q := by
  rw [among?, List.getElem?_concat_length, Option.bind_some]

theorem isSome_among?_concat {items : List Proof} {q : Proof} {place : List Nat} :
    (among? (items ++ [q]) place).isSome ↔
      (among? items place).isSome ∨ ∃ rest, (at? rest q).isSome ∧ items.length :: rest = place := by
  constructor
  · intro h
    obtain ⟨i, rest, hi, rfl⟩ := exists_of_among? h
    rw [List.length_append, List.length_singleton, Nat.lt_succ_iff_lt_or_eq] at hi
    rcases hi with hi | rfl
    · exact .inl (among?_init hi q rest ▸ h)
    · exact .inr ⟨rest, among?_last items q rest ▸ h, rfl⟩
  · rintro (h | ⟨rest, h, rfl⟩)
    · obtain ⟨i, rest, hi, rfl⟩ := exists_of_among? h
      rwa [among?_init hi]
    · rwa [among?_last]

/-- The last item is toured after all places of the others. -/
theorem Tour.concat {before : List Nat → List Nat → Prop} (sweeps : Sweeps before) {items nodes nodes' : List Proof}
    {q : Proof} {outer inner : List (List Nat)} (others : Tour before (among? items) nodes outer)
    (last : Tour before (at? · q) nodes' inner) :
    Tour before (among? (items ++ [q])) (nodes ++ nodes') (outer ++ inner.map (items.length :: ·)) := by
  have reached {place : List Nat} (h : place ∈ outer) : ∃ i rest, i < items.length ∧ place = i :: rest :=
    exists_of_among? ((others.everywhere place).mp h)
  have ordered : (outer ++ inner.map (items.length :: ·)).Pairwise before := by
    refine List.pairwise_append.mpr ⟨others.ordered, List.pairwise_map.mpr (last.ordered.imp (sweeps.deeper _)), ?_⟩
    intro place hp place' hp'
    obtain ⟨i, rest, hi, rfl⟩ := reached hp
    obtain ⟨rest', -, rfl⟩ := List.mem_map.mp hp'
    exact sweeps.left hi rest rest'
  refine ⟨sweeps.nodup ordered, ordered, fun place => ?_, ?_⟩
  · rw [List.mem_append, List.mem_map, others.everywhere, isSome_among?_concat]
    exact or_congr_right (exists_congr fun rest => and_congr_left' (last.everywhere rest))
  · rw [List.map_append, List.map_append, others.shown, last.shown, List.map_map]
    congr 1
    · refine List.map_congr_left fun place hp => ?_
      obtain ⟨i, rest, hi, rfl⟩ := reached hp
      rw [among?_init hi]
    · exact List.map_congr_left fun place _ => (among?_last items q place).symm

theorem tour_among {before : List Nat → List Nat → Prop} (sweeps : Sweeps before) {visit : Proof → List Proof}
    {items : List Proof} (h : ∀ q ∈ items, ∃ places, Tour before (at? · q) (visit q) places) :
    ∃ places, Tour before (among? items) (items.flatMap visit) places := by
  -- The number of the last item is how many there are before it, so the items are taken from the right.
  induction items using List.reverseRecOn with
  | nil => exact ⟨[], .nil, .nil, fun place => by cases place <;> simp [among?], rfl⟩
  | append_singleton items q ih =>
    obtain ⟨outer, others⟩ := ih fun r hr => h r (List.mem_append_left _ hr)
    obtain ⟨inner, last⟩ := h q (List.mem_append_right _ List.mem_cons_self)
    rw [List.flatMap_append, List.flatMap_singleton]
    exact ⟨_, others.concat sweeps last⟩

theorem isSome_at? (p : Proof) (place : List Nat) :
    (at? place p).isSome ↔ place = [] ∨ (among? p.children place).isSome := by
  cases place <;> simp [at?, among?]

namespace Tour
variable {before : List Nat → List Nat → Prop} {p : Proof} {nodes : List Proof} {places : List (List Nat)}

/-- Places among the parts are places inside the root. -/
theorem map_at? (parts : Tour before (among? p.children) nodes places) :
    places.map (at? · p) = nodes.map some := by
  rw [parts.shown]
  refine List.map_congr_left fun place hp => ?_
  obtain ⟨i, rest, -, rfl⟩ := exists_of_among? ((parts.everywhere place).mp hp)
  rfl

theorem root_first (parts : Tour (· < ·) (among? p.children) nodes places) :
    Tour (· < ·) (at? · p) (p :: nodes) ([] :: places) := by
  have ordered : ([] :: places).Pairwise (· < ·) := by
    refine List.pairwise_cons.mpr ⟨fun place hp => ?_, parts.ordered⟩
    obtain ⟨i, rest, -, rfl⟩ := exists_of_among? ((parts.everywhere place).mp hp)
    exact .nil
  refine ⟨sweeps_lt.nodup ordered, ordered, fun place => ?_, ?_⟩
  · rw [List.mem_cons, parts.everywhere, isSome_at?]
  · rw [List.map_cons, List.map_cons, parts.map_at?, at?]

theorem root_last (parts : Tour Closes (among? p.children) nodes places) :
    Tour Closes (at? · p) (nodes ++ [p]) (places ++ [[]]) := by
  have ordered : (places ++ [[]]).Pairwise Closes := by
    refine List.pairwise_append.mpr ⟨parts.ordered, List.pairwise_singleton _ _, fun place hp root hr => ?_⟩
    obtain ⟨i, rest, -, rfl⟩ := exists_of_among? ((parts.everywhere place).mp hp)
    exact List.mem_singleton.mp hr ▸ .inside i rest
  refine ⟨sweeps_closes.nodup ordered, ordered, fun place => ?_, ?_⟩
  · rw [List.mem_append, List.mem_singleton, parts.everywhere, isSome_at?, or_comm]
  · rw [List.map_append, List.map_append, parts.map_at?, List.map_singleton, List.map_singleton, at?]

end Tour

theorem tour_preorder (p : Proof) : ∃ places, Tour (· < ·) (at? · p) p.preorder places := by
  induction p using induct_children with
  | step p ih =>
    obtain ⟨places, parts⟩ := tour_among sweeps_lt ih
    exact ⟨_, preorder_eq_children p ▸ parts.root_first⟩

theorem tour_postorder (p : Proof) : ∃ places, Tour Closes (at? · p) p.postorder places := by
  induction p using induct_children with
  | step p ih =>
    obtain ⟨places, parts⟩ := tour_among sweeps_closes ih
    exact ⟨_, postorder_eq_children p ▸ parts.root_last⟩

/-- The traversals of a proof see the same tree: nothing changes where nothing is replaced, every pass shows what is at
each of its places once, and the claims are what the nodes state, parts before what they are parts of. -/
structure Traversed (p : Proof) : Prop where
  rewritten : p.rewrite (fun _ => none) = p
  transformed : p.transformUp id = p
  mapped : p.mapChildren id = p
  offered : (p.mapChildrenM fun q => do note q; return q).run [] = (p, p.children)
  descended : (p.rewriteM fun q => do note q; return none).run [] = (p, p.preorder)
  ascended : (p.transformUpM fun q => do note q; return q).run [] = (p, p.postorder)
  before : ∃ places, Tour (· < ·) (at? · p) p.preorder places
  after : ∃ places, Tour Closes (at? · p) p.postorder places
  claimed : p.claims = p.postorder.filterMap fun q => q.own?.bind Entry.claim?

theorem traverses (p : Proof) : p.Traversed where
  rewritten := rewriteM_eq_forM (m := Id) (fun _ => pure ()) p
  transformed := transformUpM_eq_forM (m := Id) (fun _ => pure ()) p
  mapped := mapChildrenM_eq_forM (m := Id) (fun _ => pure ()) fun _ _ => rfl
  offered := by rw [mapChildrenM_eq_forM note fun _ _ => rfl, run_forM_note, List.nil_append]
  descended := by rw [rewriteM_eq_forM, run_forM_note, List.nil_append]
  ascended := by rw [transformUpM_eq_forM, run_forM_note, List.nil_append]
  before := tour_preorder p
  after := tour_postorder p
  claimed := claims_eq_postorder p

end Proof

end Rationale
