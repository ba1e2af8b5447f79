import Rationale.Proofs.Batches
import Rationale.Proofs.Relevance

/-!
A compaction loses nothing. What it leaves of a conjunction are the items that equal none before them, each with the
number of its occurrences where these are several; what it leaves of a comparison are the first members of batches
whose proofs tell them apart by nothing but their own labels, so that the proof of every other member is got back from
that of the first by putting its label in. The mask must not have stood in the proofs before, and no note either.
-/

namespace Rationale

open List

namespace Proof

def isAnnotated : Proof → Bool
  | .annotated _ _ => true
  | _ => false

theorem isAnnotated_mapChildren (f : Proof → Proof) (p : Proof) : (mapChildren f p).isAnnotated = p.isAnnotated := by
  cases p <;> simp [isAnnotated]

/-- The items in batches of the same ones, which a compaction counts. -/
abbrev itemBatches (items : List Proof) : List (Batch Proof) := batches same items

/-- The first of a batch of items, with a note how many there are if there are several. -/
def noted (b : Batch Proof) : Proof := repeated (b.first, b.others.length + 1)

theorem noted_cases (b : Batch Proof) :
    b.others ≠ [] ∧ noted b = .annotated b.first ("×" ++ toString (b.others.length + 1)) ∨
      b.others = [] ∧ noted b = b.first := by
  rw [noted, repeated]
  cases b.others with
  | nil => exact .inr ⟨rfl, rfl⟩
  | cons p rest => exact .inl ⟨cons_ne_nil p rest, if_pos (by rw [length_cons]; omega)⟩

theorem tally_map (p : Proof) (bs : List (Batch Proof)) :
    tally p (bs.map fun b => (b.first, b.others.length + 1))
      = (enter same p bs).map fun b => (b.first, b.others.length + 1) := by
  induction bs with
  | nil => rfl
  | cons b rest ih =>
    rw [map_cons, tally, enter]
    split
    · rw [map_cons, length_append]
      rfl
    · rw [map_cons, ih]

theorem foldl_tally (items : List Proof) (bs : List (Batch Proof)) :
    items.foldl (fun seen p => tally p seen) (bs.map fun b => (b.first, b.others.length + 1))
      = (items.foldl (fun bs p => enter same p bs) bs).map fun b => (b.first, b.others.length + 1) := by
  induction items generalizing bs with
  | nil => rfl
  | cons p rest ih => rw [foldl_cons, foldl_cons, tally_map, ih]

theorem compactStep_conj (items : List Proof) :
    compactStep (.conj items) = .conj ((itemBatches items).map noted) := by
  have counted := foldl_tally items []
  rw [map_nil] at counted
  rw [compactStep, counted, map_map]
  rfl

/-- The item with a note how often it occurs, if it occurs more than once. -/
def counted (items : List Proof) (p : Proof) : Proof :=
  if 1 < items.countP p.same then .annotated p ("×" ++ toString (items.countP p.same)) else p

theorem noted_eq_counted {items : List Proof} {b : Batch Proof} (hb : b ∈ itemBatches items) :
    noted b = counted items b.first := by
  have count := countP_batch same same_symm same_trans hb
  have like := alike_batches same items b hb
  have others : b.others.countP b.first.same = b.others.length := countP_eq_length.mpr like
  rw [Batch.all, countP_cons, others] at count
  rcases noted_cases b with ⟨several, eq⟩ | ⟨single, eq⟩
  · obtain ⟨x, hx⟩ := exists_mem_of_ne_nil _ several
    have itself : b.first.same b.first = true := same_trans (like x hx) (same_symm (like x hx))
    have more : 1 < b.others.length + 1 := Nat.succ_lt_succ (length_pos_iff.mpr several)
    rw [if_pos itself] at count
    rw [eq, counted, count, if_pos more]
  · have once : ¬1 < items.countP b.first.same := by
      rw [count, single, length_nil]
      split <;> decide
    rw [eq, counted, if_neg once]

/-- What a compaction leaves of the items of a conjunction: those that equal none before them, with their numbers. -/
structure Gathers (items kept : List Proof) : Prop where
  counted : kept = (newcomers same [] items).map (counted items)
  different : kept.Pairwise fun p q => p.same q = false ∧ q.same p = false
  covered : ∀ p ∈ items, p ∈ newcomers same [] items ∨ ∃ q ∈ newcomers same [] items, q.same p = true

theorem noted_apart {b b' : Batch Proof} (plain : b.first.isAnnotated = false) (plain' : b'.first.isAnnotated = false)
    (apart : b.first.same b'.first = false) : (noted b).same (noted b') = false := by
  have unlike {p q : Proof} (h : p.isAnnotated = true) (h' : q.isAnnotated = false) : p.same q = false := by
    refine Bool.eq_false_iff.mpr fun same => ?_
    cases (same_iff.mp same).1 with
    | annotated p p' note => cases h'
    | _ => cases h
  rcases noted_cases b with ⟨-, eq⟩ | ⟨-, eq⟩
  · rcases noted_cases b' with ⟨-, eq'⟩ | ⟨-, eq'⟩
    · rw [eq, eq', Proof.same, apart]
      rfl
    · rw [eq, eq']
      exact unlike rfl plain'
  · rcases noted_cases b' with ⟨-, eq'⟩ | ⟨-, eq'⟩
    · rw [eq, eq', same_comm]
      exact unlike rfl plain
    · rw [eq, eq']
      exact apart

theorem gathers_items {items : List Proof} (plain : ∀ p ∈ items, p.isAnnotated = false) :
    Gathers items ((itemBatches items).map noted) := by
  have firsts := firsts_eq_newcomers same same_trans items
  constructor
  · rw [← firsts, map_map]
    exact map_congr_left fun b hb => noted_eq_counted hb
  · have unnoted {b : Batch Proof} (hb : b ∈ itemBatches items) : b.first.isAnnotated = false := plain _ (first_mem hb)
    refine pairwise_map.mpr ((apart_batches same items).imp_of_mem fun {b b'} hb hb' apart => ?_)
    have different := noted_apart (unnoted hb) (unnoted hb') apart
    exact ⟨different, same_comm _ _ ▸ different⟩
  · intro p hp
    obtain ⟨b, hb, hp⟩ := mem_flatMap.mp ((batches_perm same items).symm.subset hp)
    have first : b.first ∈ newcomers same [] items := firsts ▸ mem_map_of_mem hb
    rcases mem_cons.mp hp with rfl | hp
    · exact .inl first
    · exact .inr ⟨b.first, first, alike_batches same items b hb p hp⟩

/-! ### Members -/

/-- Two members whose proofs are the same once their labels are masked. -/
def alikeMembers (x y : Member Proof) : Bool := (maskedProof x).same (maskedProof y)

/-- The members in batches of those that a compaction merges. -/
abbrev memberBatches (members : List (Member Proof)) : List (Batch (Member Proof)) := batches alikeMembers members

/-- The first member of a batch, which stands for all of them. -/
def merged (b : Batch (Member Proof)) : Member Proof := { b.first with labels := labels b.all }

theorem fold_map (x : Member Proof) (bs : List (Batch (Member Proof))) :
    fold x (bs.map fun b => (maskedProof b.first, merged b))
      = (enter alikeMembers x bs).map fun b => (maskedProof b.first, merged b) := by
  induction bs with
  | nil =>
    rw [map_nil, fold, enter, map_singleton, merged, Batch.all, labels_cons, labels_nil, append_nil]
  | cons b rest ih =>
    rw [map_cons, fold, enter]
    split
    · rename_i like
      have all : labels b.all ++ x.labels = labels (b.first :: (b.others ++ [x])) := by
        simp [Batch.all, labels]
      rw [if_pos (show alikeMembers b.first x = true from like), map_cons, merged, all]
      rfl
    · rename_i unlike
      rw [if_neg (show ¬alikeMembers b.first x = true from unlike), map_cons, ih]

theorem foldl_fold (members : List (Member Proof)) (bs : List (Batch (Member Proof))) :
    members.foldl (fun kept x => fold x kept) (bs.map fun b => (maskedProof b.first, merged b))
      = (members.foldl (fun bs x => enter alikeMembers x bs) bs).map fun b => (maskedProof b.first, merged b) := by
  induction members generalizing bs with
  | nil => rfl
  | cons x rest ih => rw [foldl_cons, foldl_cons, fold_map, ih]

theorem compactStep_group (c : Claim) (membership : Option Proof) (members : List (Member Proof)) (n d : Nat)
    (o : Origin) : compactStep (.group c membership members n d o)
      = .group c membership ((memberBatches members).map merged) n d o := by
  have folded := foldl_fold members []
  rw [map_nil] at folded
  rw [compactStep, folded, map_map]
  rfl

theorem maskedProof_of_head {x : Member Proof} {label : String} (h : label ∈ x.labels.head?) :
    maskedProof x = x.proof.relabel label mask := by
  rw [maskedProof]
  cases hlabels : x.labels with
  | nil => rw [hlabels] at h; cases h
  | cons first rest =>
    rw [hlabels, head?_cons, Option.mem_some] at h
    rw [h]

theorem maskedProof_of_unlabelled {x : Member Proof} (h : x.labels = []) : maskedProof x = x.proof := by
  rw [maskedProof, h]

theorem head?_labels {members : List (Member Proof)} {label : String} (h : label ∈ (labels members).head?) :
    ∃ x ∈ members, label ∈ x.labels.head? := by
  induction members with
  | nil => cases h
  | cons x rest ih =>
    cases hlabels : x.labels with
    | nil =>
      rw [labels_cons, hlabels, nil_append] at h
      obtain ⟨y, hy, hlabel⟩ := ih h
      exact ⟨y, mem_cons_of_mem _ hy, hlabel⟩
    | cons first others =>
      rw [labels_cons, hlabels] at h
      exact ⟨x, mem_cons_self, hlabels ▸ h⟩

/-- With the labels of others, which may give it its first one, a member stays what it is when its label is masked. -/
theorem maskedProof_merged {b : Batch (Member Proof)} (like : ∀ x ∈ b.others, alikeMembers b.first x = true) :
    maskedProof (merged b) = maskedProof b.first := by
  cases hfirst : b.first.labels with
  | cons label rest =>
    have own : label ∈ b.first.labels.head? := by rw [hfirst]; rfl
    have joint : label ∈ (merged b).labels.head? := by rw [merged, Batch.all, labels_cons, hfirst]; rfl
    rw [maskedProof_of_head own, maskedProof_of_head joint]
    rfl
  | nil =>
    rw [maskedProof_of_unlabelled hfirst]
    cases hlabels : (merged b).labels with
    | nil => exact maskedProof_of_unlabelled hlabels
    | cons label rest =>
      have joint : label ∈ (merged b).labels.head? := by rw [hlabels]; rfl
      have given : label ∈ (labels b.others).head? := by
        rwa [merged, Batch.all, labels_cons, hfirst, nil_append] at joint
      obtain ⟨x, hx, hlabel⟩ := head?_labels given
      have same := like x hx
      rw [alikeMembers, maskedProof_of_unlabelled hfirst, maskedProof_of_head hlabel] at same
      rw [maskedProof_of_head joint]
      exact relabel_of_same_masked same

theorem apart_merged (members : List (Member Proof)) :
    ((memberBatches members).map merged).Pairwise fun x y => alikeMembers x y = false := by
  have like := alike_batches alikeMembers members
  refine pairwise_map.mpr ((apart_batches alikeMembers members).imp_of_mem fun {b b'} hb hb' different => ?_)
  rw [alikeMembers, maskedProof_merged (like b hb), maskedProof_merged (like b' hb')]
  exact different

/-- What a compaction leaves of the members of a comparison. The members of each batch have become the first of them,
and with its own label, if it has one, in place of that of the first, the proof of each of the others is got back. No
two that could be merged are left. -/
structure Merges (members kept : List (Member Proof)) (batches : List (Batch (Member Proof))) : Prop where
  merged : kept = batches.map merged
  originals : batches.map Batch.first <+ members
  whole : batches.flatMap Batch.all ~ members
  labels : labels kept ~ labels members
  labelled : ∀ b ∈ batches, ∀ x ∈ b.others, ∀ k ∈ (Proof.merged b).labels.head?, ∀ l ∈ x.labels.head?,
    x.proof.same (b.first.proof.relabel k l) = true
  unlabelled : ∀ b ∈ batches, ∀ x ∈ b.others, x.labels = [] → x.proof.same b.first.proof = true
  apart : kept.Pairwise fun x y => alikeMembers x y = false

theorem merges_members {members : List (Member Proof)}
    (unmasked : ∀ x ∈ members, ∀ c ∈ x.proof.claims, ¬c.Mentions mask) :
    Merges members ((memberBatches members).map merged) (memberBatches members) := by
  have originals := firsts_sublist alikeMembers members
  have whole := batches_perm alikeMembers members
  have like := alike_batches alikeMembers members
  have other {b : Batch (Member Proof)} (hb : b ∈ memberBatches members) {x : Member Proof} (hx : x ∈ b.others) :
      x ∈ members := whole.subset (mem_flatMap.mpr ⟨b, hb, mem_cons_of_mem _ hx⟩)
  refine ⟨rfl, originals, whole, ?_, ?_, ?_, apart_merged members⟩
  · have joined : labels ((memberBatches members).map merged) = labels ((memberBatches members).flatMap Batch.all) := by
      rw [labels, labels, flatMap_map, flatMap_assoc]
      rfl
    rw [joined]
    exact whole.flatMap_right _
  -- No claim mentions the mask, so members alike behind it are the same but for the labels they are about.
  · intro b hb x hx k hk l hl
    have same := like b hb x hx
    rw [alikeMembers, ← maskedProof_merged (like b hb), maskedProof_of_head hk, maskedProof_of_head hl] at same
    exact same_of_masked (unmasked _ (first_mem hb)) (unmasked x (other hb hx)) same
  · intro b hb x hx hlabels
    have same := like b hb x hx
    rw [alikeMembers, maskedProof_of_unlabelled hlabels] at same
    cases hfirst : b.first.labels with
    | nil =>
      rw [maskedProof_of_unlabelled hfirst] at same
      exact same_symm same
    | cons k rest =>
      have own : k ∈ b.first.labels.head? := by rw [hfirst]; rfl
      rw [maskedProof_of_head own] at same
      have back := same_relabel same mask k
      rw [relabel_relabel (unmasked _ (first_mem hb)), relabel_self,
        relabel_of_absent (unmasked x (other hb hx))] at back
      exact same_symm back

/-! ### Nodes -/

/-- What a compaction makes of a node. -/
inductive Compacts : Proof → Proof → Prop
  | conj {items kept : List Proof} (gathers : Gathers items kept) : Compacts (.conj items) (.conj kept)
  | group {c : Claim} {membership : Option Proof} {members kept : List (Member Proof)}
      {batches : List (Batch (Member Proof))} {n d : Nat} {o : Origin} (merges : Merges members kept batches) :
      Compacts (.group c membership members n d o) (.group c membership kept n d o)
  | other {p : Proof} (conj : p.isConj = false) (group : p.isGroup = false) : Compacts p p

theorem compacts_compactStep {p : Proof} (unmasked : ∀ q ∈ p.children, ∀ c ∈ q.claims, ¬c.Mentions mask)
    (plain : ∀ q ∈ p.children, q.isAnnotated = false) : Compacts p (compactStep p) := by
  cases p with
  | conj items =>
    rw [compactStep_conj]
    exact .conj (gathers_items plain)
  | group c membership members n d o =>
    rw [compactStep_group]
    exact .group (merges_members fun x hx => unmasked _ (mem_append_right _ (mem_map_of_mem hx)))
  | _ => exact .other rfl rfl

theorem isAnnotated_compact (p : Proof) : (p.transformUp compactStep).isAnnotated = p.isAnnotated := by
  have own (p : Proof) : (compactStep p).isAnnotated = p.isAnnotated := by cases p <;> rfl
  rw [transformUp_eq, own, isAnnotated_mapChildren]

theorem claims_compact_subset (p : Proof) : (p.transformUp compactStep).claims ⊆ p.claims := fun _ hc =>
  mem_stated_claim.mp ((Tactic.compactSame.stated_rewrite_subperm p).subset (mem_stated_claim.mpr hc))

end Proof

/-- A compaction works node by node without loss, and leaves the normal form of what it has worked. -/
theorem Tactic.compactSame_lossless {p : Proof} (unmasked : ∀ c ∈ p.claims, ¬c.Mentions Proof.mask)
    (plain : p.Every fun q => q.isAnnotated = false) :
    ∃ q, p.Worked Proof.Compacts q ∧ Tactic.compactSame.apply p = q.normalize := by
  refine ⟨p.transformUp Proof.compactStep, ?_, rfl⟩
  induction p using Proof.induct_children with
  | step p ih =>
    obtain ⟨-, parts⟩ := Proof.every_iff.mp plain
    have unmasked' : ∀ q ∈ p.children, ∀ c ∈ q.claims, ¬c.Mentions Proof.mask := fun q hq c hc =>
      unmasked c (Proof.claims_eq_parts p ▸ mem_append_left _ (mem_flatMap.mpr ⟨q, hq, hc⟩))
    refine .node (Proof.transformUp Proof.compactStep) (fun q hq => ih q hq (unmasked' q hq) (parts q hq)) ?_
    rw [Proof.transformUp_eq]
    refine Proof.compacts_compactStep ?_ ?_
    · rw [Proof.children_mapChildren]
      exact forall_mem_map.mpr fun q hq c hc => unmasked' q hq c (Proof.claims_compact_subset q hc)
    · rw [Proof.children_mapChildren]
      intro q' hq'
      obtain ⟨q, hq, rfl⟩ := mem_map.mp hq'
      rw [Proof.isAnnotated_compact]
      exact (Proof.every_iff.mp (parts q hq)).1

/-- A suit compared with another one, for a reason that is given twice. -/
def Suit.outdoes (other value : String) : Proof :=
  let own := Proof.claim ⟨"clubs", .has "worth" "4", false⟩
  .implies (.conj [own, .claim ⟨other, .has "worth" value, false⟩, own]) ⟨"clubs", .compared "better" other, false⟩ 2
    ⟨"better", .comparison⟩

/-- Two of the suits compared with do alike. -/
def Suit.rivals : Proof :=
  .group ⟨"clubs", .comparedToGroup "better" "rest" .every, false⟩ none
    [⟨["diamonds"], none, outdoes "diamonds" "3"⟩, ⟨["hearts"], none, outdoes "hearts" "3"⟩,
      ⟨["spades"], none, outdoes "spades" "1"⟩] 0 2 ⟨"better", .comparison⟩

theorem Suit.rivals_lossless : (∀ c ∈ rivals.claims, ¬c.Mentions Proof.mask) ∧
    rivals.Every (fun q => q.isAnnotated = false) ∧
    (∃ q, rivals.Worked Proof.Compacts q ∧ Tactic.compactSame.apply rivals = q.normalize) ∧
    (Tactic.compactSame.apply rivals).claims.length < rivals.claims.length := by
  have unmasked : ∀ c ∈ rivals.claims, ¬c.Mentions Proof.mask := by decide
  have plain : ∀ q ∈ rivals.preorder, q.isAnnotated = false := by decide
  exact ⟨unmasked, plain, Tactic.compactSame_lossless unmasked plain, by decide⟩

end Rationale
