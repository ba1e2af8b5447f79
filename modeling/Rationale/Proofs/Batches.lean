import Mathlib.Data.List.Induction
import Rationale.Proofs.Groups
import Rationale.Proofs.Sameness

/-!
Batches. Both loops of a compaction put what they meet into the first batch of like elements, or open a new one: items
are alike if they are the same, members if their proofs are with their labels masked. The batches hold each element
once, their first elements stand in the order in which they were met and are not alike, and what is in a batch is like
its first element.
-/

namespace Rationale

open List

/-- An element, and those met after it that are like it. -/
structure Batch (α : Type) where
  first : α
  others : List α

def Batch.all {α : Type} (b : Batch α) : List α := b.first :: b.others

section Batches
variable {α : Type} (alike : α → α → Bool)

/-- Enters an element into the first batch that it is like, or into one of its own. -/
def enter (x : α) : List (Batch α) → List (Batch α)
  | [] => [⟨x, []⟩]
  | b :: rest => if alike b.first x then ⟨b.first, b.others ++ [x]⟩ :: rest else b :: enter x rest

def batches (xs : List α) : List (Batch α) := xs.foldl (fun bs x => enter alike x bs) []

/-- The elements that none met before is like. -/
def newcomers (met : List α) : List α → List α
  | [] => []
  | x :: rest =>
    if met.any (alike · x) then newcomers (met ++ [x]) rest else x :: newcomers (met ++ [x]) rest

variable {alike}

theorem enter_cases (x : α) (bs : List (Batch α)) :
    (∃ before b after, bs = before ++ b :: after ∧ alike b.first x = true ∧
      enter alike x bs = before ++ ⟨b.first, b.others ++ [x]⟩ :: after) ∨
    (∀ b ∈ bs, alike b.first x = false) ∧ enter alike x bs = bs ++ [⟨x, []⟩] := by
  induction bs with
  | nil => exact .inr ⟨forall_mem_nil _, rfl⟩
  | cons b rest ih =>
    rw [enter]
    split
    · rename_i like
      exact .inl ⟨[], b, rest, rfl, like, rfl⟩
    · rename_i unlike
      rcases ih with ⟨before, b', after, rfl, like, entered⟩ | ⟨none, entered⟩
      · exact .inl ⟨b :: before, b', after, rfl, like, congrArg (b :: ·) entered⟩
      · exact .inr ⟨forall_mem_cons.mpr ⟨Bool.eq_false_iff.mpr unlike, none⟩, congrArg (b :: ·) entered⟩

theorem batches_append (xs : List α) (x : α) : batches alike (xs ++ [x]) = enter alike x (batches alike xs) := by
  rw [batches, foldl_append]
  rfl

/-- What holds at first, and is kept when an element joins a batch that it is like and when it opens one of its own,
holds of the batches of any elements. -/
theorem batches_induct {motive : List α → List (Batch α) → Prop} (nil : motive [] [])
    (joins : ∀ xs before b after x, motive xs (before ++ b :: after) → alike b.first x = true →
      motive (xs ++ [x]) (before ++ ⟨b.first, b.others ++ [x]⟩ :: after))
    (opens : ∀ xs bs x, motive xs bs → (∀ b ∈ bs, alike b.first x = false) → motive (xs ++ [x]) (bs ++ [⟨x, []⟩]))
    (xs : List α) : motive xs (batches alike xs) := by
  induction xs using reverseRecOn with
  | nil => exact nil
  | append_singleton xs x ih =>
    rw [batches_append]
    rcases enter_cases x (batches alike xs) with ⟨before, b, after, split, like, entered⟩ | ⟨unlike, entered⟩
    · rw [entered]
      exact joins xs before b after x (split ▸ ih) like
    · rw [entered]
      exact opens xs _ x ih unlike

variable (alike) in
theorem batches_perm (xs : List α) : (batches alike xs).flatMap Batch.all ~ xs := by
  refine batches_induct (motive := fun xs bs => bs.flatMap Batch.all ~ xs) .nil ?_ ?_ xs
  · intro xs before b after x perm _
    refine Perm.trans ?_ (perm.append_right [x])
    simp only [flatMap_append, flatMap_cons, Batch.all, append_assoc, cons_append]
    have swapped : [x] ++ after.flatMap Batch.all ~ after.flatMap Batch.all ++ [x] := perm_append_comm
    exact ((swapped.append_left _).cons _).append_left _
  · intro xs bs x perm _
    rw [flatMap_append]
    exact perm.append_right [x]

variable (alike) in
theorem firsts_sublist (xs : List α) : (batches alike xs).map Batch.first <+ xs := by
  refine batches_induct (motive := fun xs bs => bs.map Batch.first <+ xs) (nil_sublist _) ?_ ?_ xs
  · intro xs before b after x sub _
    rw [map_append, map_cons] at sub ⊢
    exact sub.trans (sublist_append_left _ _)
  · intro xs bs x sub _
    rw [map_append]
    exact sub.append (Sublist.refl _)

theorem first_mem {xs : List α} {b : Batch α} (hb : b ∈ batches alike xs) : b.first ∈ xs :=
  (firsts_sublist alike xs).subset (mem_map_of_mem hb)

variable (alike) in
theorem alike_batches (xs : List α) : ∀ b ∈ batches alike xs, ∀ x ∈ b.others, alike b.first x = true := by
  refine batches_induct (motive := fun _ bs => ∀ b ∈ bs, ∀ x ∈ b.others, alike b.first x = true) (forall_mem_nil _)
    ?_ ?_ xs
  · intro xs before b after x each like
    rw [forall_mem_append, forall_mem_cons] at each ⊢
    obtain ⟨hbefore, hb, hafter⟩ := each
    exact ⟨hbefore, forall_mem_append.mpr ⟨hb, forall_mem_singleton.mpr like⟩, hafter⟩
  · intro xs bs x each _
    exact forall_mem_append.mpr ⟨each, forall_mem_singleton.mpr (forall_mem_nil _)⟩

variable (alike) in
theorem apart_firsts (xs : List α) :
    ((batches alike xs).map Batch.first).Pairwise fun x y => alike x y = false := by
  refine batches_induct (motive := fun _ bs => (bs.map Batch.first).Pairwise fun x y => alike x y = false) .nil ?_ ?_ xs
  · intro xs before b after x apart _
    rw [map_append, map_cons] at apart ⊢
    exact apart
  · intro xs bs x apart unlike
    rw [map_append]
    refine pairwise_append.mpr ⟨apart, pairwise_singleton _ _, fun y hy z hz => ?_⟩
    obtain ⟨b, hb, rfl⟩ := mem_map.mp hy
    obtain rfl := mem_singleton.mp hz
    exact unlike b hb

variable (alike) in
theorem apart_batches (xs : List α) : (batches alike xs).Pairwise fun b b' => alike b.first b'.first = false :=
  pairwise_map.mp (apart_firsts alike xs)

/-- Elements of which none is like an earlier one are batches of their own. -/
theorem batches_of_apart {xs : List α} (apart : xs.Pairwise fun x y => alike x y = false) :
    batches alike xs = xs.map fun x => ⟨x, []⟩ := by
  refine batches_induct (motive := fun xs bs => xs.Pairwise (fun x y => alike x y = false) →
    bs = xs.map fun x => ⟨x, []⟩) (fun _ => rfl) ?_ ?_ xs apart
  · intro xs before b after x ih like apart
    obtain ⟨apart, -, unlike⟩ := pairwise_append.mp apart
    have hb : b.first ∈ xs := by
      have : b ∈ xs.map fun x => (⟨x, []⟩ : Batch α) := ih apart ▸ mem_append_right _ mem_cons_self
      obtain ⟨y, hy, rfl⟩ := mem_map.mp this
      exact hy
    rw [unlike _ hb x (mem_singleton_self x)] at like
    cases like
  · intro xs bs x ih _ apart
    rw [map_append, ih (pairwise_append.mp apart).1]
    rfl

theorem newcomers_append (met xs : List α) (x : α) : newcomers alike met (xs ++ [x])
    = newcomers alike met xs ++ if (met ++ xs).any (alike · x) then [] else [x] := by
  induction xs generalizing met with
  | nil =>
    rw [nil_append, append_nil, newcomers, newcomers, newcomers, nil_append]
  | cons y rest ih =>
    rw [cons_append, newcomers, newcomers, ih, append_assoc, singleton_append]
    split
    · rfl
    · rfl

section Equivalence
variable (alike) (symm : ∀ {x y}, alike x y = true → alike y x = true)
  (trans : ∀ {x y z}, alike x y = true → alike y z = true → alike x z = true)

include trans

theorem firsts_eq_newcomers (xs : List α) : (batches alike xs).map Batch.first = newcomers alike [] xs := by
  induction xs using reverseRecOn with
  | nil => rfl
  | append_singleton xs x ih =>
    rw [newcomers_append, ← ih, nil_append, batches_append]
    rcases enter_cases x (batches alike xs) with ⟨before, b, after, split, like, entered⟩ | ⟨unlike, entered⟩
    · have hb : b.first ∈ xs := first_mem (split ▸ mem_append_right _ mem_cons_self)
      rw [if_pos (any_eq_true.mpr ⟨_, hb, like⟩), entered, split, append_nil, map_append, map_append]
      rfl
    · have none : xs.any (alike · x) = false := by
        rw [any_eq_false]
        intro y hy like
        obtain ⟨b, hb, hy⟩ := mem_flatMap.mp ((batches_perm alike xs).symm.subset hy)
        have first : alike b.first x = true := by
          rcases mem_cons.mp hy with rfl | hy
          · exact like
          · exact trans (alike_batches alike xs b hb y hy) like
        rw [unlike b hb] at first
        cases first
      rw [none, entered, map_append]
      rfl

include symm

/-- The elements that the first of a batch is like are in its batch. -/
theorem countP_batch {xs : List α} {b : Batch α} (hb : b ∈ batches alike xs) :
    xs.countP (alike b.first) = b.all.countP (alike b.first) := by
  obtain ⟨before, after, split⟩ := append_of_mem hb
  have apart := apart_batches alike xs
  rw [split, pairwise_append, pairwise_cons] at apart
  obtain ⟨-, ⟨hafter, -⟩, hbefore⟩ := apart
  have elsewhere {b' : Batch α} (hb' : b' ∈ batches alike xs) (unlike : alike b.first b'.first = false) :
      ∀ x ∈ b'.all, ¬alike b.first x = true := by
    intro x hx like
    have back : alike b.first b'.first = true := by
      rcases mem_cons.mp hx with rfl | hx
      · exact like
      · exact trans like (symm (alike_batches alike xs b' hb' x hx))
    rw [unlike] at back
    cases back
  have none {bs : List (Batch α)} (h : ∀ b' ∈ bs, b' ∈ batches alike xs ∧ alike b.first b'.first = false) :
      (bs.flatMap Batch.all).countP (alike b.first) = 0 :=
    countP_eq_zero.mpr fun x hx => by
      obtain ⟨b', hb', hx⟩ := mem_flatMap.mp hx
      exact elsewhere (h b' hb').1 (h b' hb').2 x hx
  rw [← (batches_perm alike xs).countP_eq, split, flatMap_append, flatMap_cons, countP_append, countP_append, none,
    none, Nat.zero_add, Nat.add_zero]
  · exact fun b' hb' => ⟨split ▸ mem_append_right _ (mem_cons_of_mem _ hb'), hafter b' hb'⟩
  · intro b' hb'
    refine ⟨split ▸ mem_append_left _ hb', Bool.eq_false_iff.mpr fun like => ?_⟩
    have back := symm like
    rw [hbefore b' hb' b mem_cons_self] at back
    cases back

end Equivalence

end Batches

end Rationale
