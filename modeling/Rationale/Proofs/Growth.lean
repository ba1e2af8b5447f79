import Mathlib.Algebra.BigOperators.Ring.List
import Mathlib.Algebra.Ring.Nat
import Rationale.GameTree.Random
import Rationale.Proofs.Descriptions

/-!
Random trees. Every draw for a leaf stays in its range, whichever numbers the generator gives, and the tree around the
leaves is complete. Labels spell the path to a node by the numbers of the children on it, with nothing between them. Up to
ten children no two paths are spelled alike, and beyond that the labels of a tree with two levels are not distinct.
-/

namespace Rationale

namespace Generator

/-- The upper and the lower half of a product are together what the product is. -/
theorem toNat_product (word : UInt32) {bound : UInt64} (small : bound.toNat ≤ 2 ^ 32) :
    (word.toUInt64 * bound).toNat = word.toNat * bound.toNat := by
  have hword := word.toNat_lt
  have hprod : word.toNat * bound.toNat < 2 ^ 64 := by
    calc word.toNat * bound.toNat ≤ word.toNat * 2 ^ 32 := Nat.mul_le_mul_left _ small
      _ < 2 ^ 32 * 2 ^ 32 := (Nat.mul_lt_mul_right (by decide)).mpr hword
      _ = 2 ^ 64 := by decide
  rw [UInt64.toNat_mul, UInt32.toNat_toUInt64, Nat.mod_eq_of_lt hprod]

theorem toNat_high (x : UInt64) : (x >>> 32).toNat = x.toNat / 2 ^ 32 := by
  rw [UInt64.toNat_shiftRight]
  simp [Nat.shiftRight_eq_div_pow]

theorem toNat_low (x : UInt64) : (x &&& 0xFFFFFFFF).toNat = x.toNat % 2 ^ 32 := by
  rw [UInt64.toNat_and]
  exact Nat.and_two_pow_sub_one_eq_mod _ 32

/-- Where the product could have carried it is too small for the carry to reach the bound. -/
theorem below_lt (g : Generator) (bound : UInt64) (pos : 0 < bound.toNat) (small : bound.toNat ≤ 2 ^ 32) :
    (g.below bound).1.toNat < bound.toNat := by
  unfold below
  dsimp only
  have hword := g.next.1.toNat_lt
  have hproduct := toNat_product g.next.1 small
  have hhigh := toNat_high (g.next.1.toUInt64 * bound)
  have hlow := toNat_low (g.next.1.toUInt64 * bound)
  rw [hproduct] at hhigh hlow
  -- A word is below `2 ^ 32`, so the product leaves room for the bound once more.
  have most : g.next.1.toNat * bound.toNat + bound.toNat ≤ 2 ^ 32 * bound.toNat := by
    rw [← Nat.succ_mul]
    exact Nat.mul_le_mul_right _ hword
  have hhigh_lt : ((g.next.1.toUInt64 * bound) >>> 32).toNat < bound.toNat := by omega
  split
  · rename_i hcarry
    rw [UInt64.lt_iff_toNat_lt, UInt64.toNat_sub_of_le _ _ (UInt64.le_iff_toNat_le.mpr small), hlow] at hcarry
    have hsmaller : ((g.next.1.toUInt64 * bound) >>> 32).toNat + 1 < bound.toNat := by
      change 2 ^ 32 - bound.toNat < _ at hcarry
      omega
    dsimp only
    split
    · rw [UInt64.toNat_add, Nat.mod_eq_of_lt (by change _ + 1 < _; omega)]
      exact hsmaller
    · exact hhigh_lt
  · exact hhigh_lt

theorem evaluation_mem (g : Generator) : -10 ≤ g.evaluation.1 ∧ g.evaluation.1 ≤ 10 := by
  have h : (g.below 21).1.toNat < 21 := g.below_lt 21 (by decide) (by decide)
  unfold evaluation
  dsimp only
  omega

end Generator

namespace TreeSpec

variable {branching : Nat}

/-- The last children, numbered up to the last one, each grown from where the generator is by then. -/
theorem growAll_numbered (build : String → Generator → TreeSpec × Generator) (label : String) {count : Nat}
    (few : count ≤ branching) (g : Generator) : ∃ start : Nat → Generator, (growAll build label branching count g).1
      = (List.range' (branching - count + 1) count).map fun number =>
        (build (childLabel label number) (start number)).1 := by
  induction count generalizing g with
  | zero => exact ⟨fun _ => g, rfl⟩
  | succ count ih =>
    obtain ⟨start, rest⟩ := ih (Nat.le_of_succ_le few) (build (childLabel label (branching - count)) g).2
    have first : branching - (count + 1) + 1 = branching - count := by omega
    refine ⟨fun number => if number = branching - count then g else start number, ?_⟩
    have others : ((List.range' (branching - count + 1) count).map fun number => (build (childLabel label number)
        (if number = branching - count then g else start number)).1) = (List.range' (branching - count + 1) count).map
        fun number => (build (childLabel label number) (start number)).1 := by
      refine List.map_congr_left fun number hnumber => ?_
      have later := List.mem_range'_1.mp hnumber
      rw [if_neg (by omega)]
    rw [List.range'_succ, first, List.map_cons, others, ← rest]
    simp only [growAll, if_true]

/-- A grown tree is a leaf, or it has a grown tree for every number of a child. -/
theorem grow_induct {motive : Nat → String → TreeSpec → Prop}
    (leaf : ∀ depth label (i : Int), depth = 0 ∨ branching = 0 → -10 ≤ i → i ≤ 10 →
      motive depth label (leaf label (Number.ofInt i)))
    (internal : branching ≠ 0 → ∀ depth label (child : Nat → TreeSpec),
      (∀ number, motive depth (childLabel label number) (child number)) →
      motive (depth + 1) label (internal label ((List.range' 1 branching).map child)))
    (depth : Nat) (label : String) (g : Generator) : motive depth label (grow branching depth label g).1 := by
  have drawn {depth : Nat} (ends : depth = 0 ∨ branching = 0) (label : String) (g : Generator) :
      motive depth label (growLeaf label g).1 := leaf depth label _ ends g.evaluation_mem.1 g.evaluation_mem.2
  induction depth generalizing label g with
  | zero => exact drawn (.inl rfl) label g
  | succ depth ih =>
    rw [grow]
    split
    · rename_i none
      exact drawn (.inr none) label g
    · rename_i pos
      obtain ⟨start, children⟩ := growAll_numbered (grow branching depth) label (Nat.le_refl branching) g
      have inner := internal pos depth label _ fun number => ih (childLabel label number) (start number)
      rw [Nat.sub_self] at children
      rwa [← children] at inner

theorem preorder_leaf (label : String) (x : Number) : (leaf label x).preorder = [leaf label x] := by
  rw [leaf, preorder, preorderOfAll]

theorem preorder_internal (label : String) (children : List TreeSpec) :
    (internal label children).preorder = internal label children :: children.flatMap preorder := by
  rw [internal, preorder, preorderOfAll_eq]

/-- Every node above the given depth has as many children as the tree branches, and the nodes there have none. -/
def Complete (branching : Nat) : Nat → TreeSpec → Prop
  | 0, s => s.children = []
  | depth + 1, s => s.children.length = branching ∧ ∀ c ∈ s.children, Complete branching depth c

theorem grow_complete (depth : Nat) (label : String) (g : Generator) :
    Complete branching depth (grow branching depth label g).1 := by
  refine grow_induct (motive := fun depth _ s => Complete branching depth s) ?_ ?_ depth label g
  · intro depth label i ends _ _
    cases depth with
    | zero => rfl
    | succ depth => exact ⟨(ends.resolve_left (Nat.succ_ne_zero depth)).symm, nofun⟩
  · intro _ depth label child ih
    exact ⟨by simp [internal], List.forall_mem_map.mpr fun number _ => ih number⟩

/-- A leaf has an evaluation, an integer from `-10` to `10`, and another node has none. -/
structure Evaluated (s : TreeSpec) : Prop where
  leaf : s.evaluation ≠ none ↔ s.children = []
  range : ∀ x, s.evaluation = some x → ∃ i : Int, x = Number.ofInt i ∧ -10 ≤ i ∧ i ≤ 10

theorem grow_evaluated (depth : Nat) (label : String) (g : Generator) :
    ∀ node ∈ (grow branching depth label g).1.preorder, node.Evaluated := by
  refine grow_induct (motive := fun _ _ s => ∀ node ∈ s.preorder, node.Evaluated) ?_ ?_ depth label g
  · intro depth label i _ low high
    rw [preorder_leaf]
    refine List.forall_mem_singleton.mpr ⟨iff_of_true nofun rfl, fun x hx => ?_⟩
    exact ⟨i, (Option.some.inj hx).symm, low, high⟩
  · intro pos depth label child ih
    rw [preorder_internal]
    refine List.forall_mem_cons.mpr ⟨⟨iff_of_false (fun h => h rfl) ?_, nofun⟩, ?_⟩
    · rw [internal, List.map_eq_nil_iff, List.range'_eq_nil_iff]
      exact pos
    · intro node hnode
      obtain ⟨c, hc, hnode⟩ := List.mem_flatMap.mp hnode
      obtain ⟨number, -, rfl⟩ := List.mem_map.mp hc
      exact ih number node hnode

/-- The ways down from the root of a complete tree by the numbers of children, in preorder. -/
def paths (branching : Nat) : Nat → List (List Nat)
  | 0 => [[]]
  | depth + 1 => [] :: (List.range' 1 branching).flatMap fun number => (paths branching depth).map (number :: ·)

theorem mem_paths {depth : Nat} {path : List Nat} : path ∈ paths branching depth ↔
    path.length ≤ depth ∧ ∀ number ∈ path, 1 ≤ number ∧ number ≤ branching := by
  induction depth generalizing path with
  | zero =>
    rw [paths, List.mem_singleton, Nat.le_zero, List.length_eq_zero_iff]
    exact (and_iff_left_of_imp fun h => by rw [h]; exact nofun).symm
  | succ depth ih =>
    rw [paths, List.mem_cons]
    cases path with
    | nil => simp
    | cons number rest =>
      simp only [List.mem_flatMap, List.mem_map, ih, List.mem_range'_1, List.cons.injEq, List.length_cons,
        Nat.add_le_add_iff_right, List.forall_mem_cons, reduceCtorEq, false_or]
      constructor
      · rintro ⟨_, there, _, ⟨short, numbered⟩, rfl, rfl⟩
        exact ⟨short, ⟨there.1, by omega⟩, numbered⟩
      · rintro ⟨short, there, numbered⟩
        exact ⟨number, ⟨there.1, by omega⟩, rest, ⟨short, numbered⟩, rfl, rfl⟩

theorem nodup_paths (depth : Nat) : (paths branching depth).Nodup := by
  induction depth with
  | zero => exact List.nodup_singleton _
  | succ depth ih =>
    rw [paths, List.nodup_cons]
    refine ⟨by simp, List.nodup_flatMap.mpr ⟨fun number _ => ih.map fun _ _ => List.cons_inj_right number |>.mp, ?_⟩⟩
    refine List.Pairwise.imp (fun {number number'} different => ?_) List.nodup_range'
    refine List.disjoint_left.mpr fun path hpath hpath' => different ?_
    obtain ⟨_, -, rfl⟩ := List.mem_map.mp hpath
    obtain ⟨_, -, same⟩ := List.mem_map.mp hpath'
    exact (List.cons.inj same).1.symm

theorem length_paths (depth : Nat) :
    (paths branching depth).length = ((List.range (depth + 1)).map (branching ^ ·)).sum := by
  induction depth with
  | zero => rfl
  | succ depth ih =>
    have further : ((List.range (depth + 1)).map fun i => branching ^ (i + 1)).sum
        = branching * ((List.range (depth + 1)).map (branching ^ ·)).sum := by
      simp only [Nat.pow_succ']
      exact List.sum_map_mul_left _ _ _
    have below : ((List.range' 1 branching).flatMap fun number => (paths branching depth).map (number :: ·)).length
        = branching * (paths branching depth).length := by
      simp only [List.length_flatMap, List.length_map, List.map_const', List.length_range', List.sum_replicate_nat]
    have first : ((List.range (depth + 2)).map (branching ^ ·)).sum
        = 1 + ((List.range (depth + 1)).map fun i => branching ^ (i + 1)).sum := by
      rw [List.range_succ_eq_map, List.map_cons, List.sum_cons, List.map_map, Nat.pow_zero]
      rfl
    rw [paths, List.length_cons, below, ih, first, further, Nat.add_comm]

/-! ### Labels -/

/-- What a node is called that is reached by a path. -/
def spell : List Nat → String
  | [] => "root"
  | path => "n" ++ String.join (path.map toString)

/-- The numbers of a path, one after the other. -/
def digits (path : List Nat) : List Char := path.flatMap fun number => (toString number).toList

theorem toList_spell {path : List Nat} (below : path ≠ []) : (spell path).toList = 'n' :: digits path := by
  cases path with
  | nil => exact absurd rfl below
  | cons number rest => simp [spell, digits, List.flatMap_map]

theorem spell_ne_root {path : List Nat} (below : path ≠ []) : spell path ≠ "root" := by
  intro same
  have letters : 'n' :: digits path = "root".toList := (toList_spell below).symm.trans (congrArg String.toList same)
  exact absurd (List.cons.inj letters).1 (by decide)

theorem spell_ne_empty (path : List Nat) : spell path ≠ "" := by
  by_cases top : path = []
  · rw [top]
    decide
  · intro same
    have letters := (toList_spell top).symm.trans (congrArg String.toList same)
    cases letters

theorem childLabel_spell (path : List Nat) (number : Nat) :
    childLabel (spell path) number = spell (path ++ [number]) := by
  rw [← String.toList_inj, toList_spell (by simp), childLabel, String.toList_append, digits, List.flatMap_append,
    List.flatMap_singleton, ← List.cons_append]
  refine congrArg (· ++ _) ?_
  by_cases top : path = []
  · rw [top]
    rfl
  · rw [if_neg (spell_ne_root top), toList_spell top]
    rfl

theorem grow_labels (depth : Nat) (path : List Nat) (g : Generator) :
    (grow branching depth (spell path) g).1.preorder.map (·.label)
      = (paths branching depth).map fun further => spell (path ++ further) := by
  refine grow_induct (motive := fun depth label s => ∀ path, label = spell path → s.preorder.map (·.label)
      = (paths branching depth).map fun further => spell (path ++ further)) ?_ ?_ depth _ g path rfl
  · rintro depth _ i ends - - path rfl
    have alone : paths branching depth = [[]] := by
      cases depth with
      | zero => rfl
      | succ depth => rw [paths, ends.resolve_left (Nat.succ_ne_zero depth)]; rfl
    rw [preorder_leaf, alone]
    simp [leaf]
  · rintro - depth _ child ih path rfl
    rw [preorder_internal, paths, List.map_cons, List.map_cons, List.map_flatMap, List.flatMap_map, List.map_flatMap]
    refine congr (congrArg _ ?_) ?_
    · simp [internal]
    · refine List.flatMap_congr fun number _ => ?_
      rw [ih number (path ++ [number]) (childLabel_spell path number), List.map_map]
      refine List.map_congr_left fun further _ => ?_
      rw [Function.comp, List.append_assoc, List.singleton_append]

/-- Numbers up to ten from their digits. -/
def numbers : List Char → List Nat
  | [] => []
  | '1' :: '0' :: rest => 10 :: numbers rest
  | c :: rest => (c.toNat - '0'.toNat) :: numbers rest

/-- No number begins with a zero, so a zero belongs to the one before it. -/
theorem digits_ne_zero_cons {path : List Nat} (numbered : ∀ number ∈ path, 1 ≤ number ∧ number ≤ 10) (more : List Char) :
    digits path ≠ '0' :: more := by
  intro same
  cases path with
  | nil => cases same
  | cons number rest =>
    obtain ⟨pos, small⟩ := numbered number List.mem_cons_self
    have first : ∀ n ≤ 10, 1 ≤ n → (toString n).toList ≠ [] ∧ (toString n).toList.head? ≠ some '0' := by decide
    obtain ⟨there, nonzero⟩ := first number small pos
    obtain ⟨c, others, spelled⟩ := List.exists_cons_of_ne_nil there
    rw [digits, List.flatMap_cons, spelled] at same
    rw [spelled] at nonzero
    exact nonzero (congrArg some (List.cons.inj same).1)

theorem numbers_digits {path : List Nat} (numbered : ∀ number ∈ path, 1 ≤ number ∧ number ≤ 10) :
    numbers (digits path) = path := by
  induction path with
  | nil => rfl
  | cons number rest ih =>
    obtain ⟨⟨pos, small⟩, further⟩ := List.forall_mem_cons.mp numbered
    have whole : digits (number :: rest) = (toString number).toList ++ digits rest := List.flatMap_cons
    rw [whole]
    -- One digit is a number unless a zero follows, and the only number with two digits ends in a zero.
    rcases Nat.lt_or_eq_of_le small with single | rfl
    · rw [Nat.toString_eq_repr, Nat.toList_repr, Nat.toDigits_of_lt_base single, List.singleton_append, numbers,
        ih further]
      · exact congrArg (· :: rest) (Nat.toNat_digitChar_sub_48_of_lt_ten single)
      · exact fun more _ => digits_ne_zero_cons further more
    · exact congrArg _ (ih further)

theorem digits_singleton_injective {number number' : Nat} (same : digits [number] = digits [number']) :
    number = number' := by
  have read (n : Nat) : Nat.ofDigitChars 10 (digits [n]) 0 = n := by
    rw [digits, List.flatMap_singleton, Nat.toString_eq_repr, Nat.toList_repr, Nat.ofDigitChars_ten_toDigits]
  rw [← read number, ← read number', same]

theorem digits_of_spell {path path' : List Nat} (same : spell path = spell path') :
    digits path = digits path' ∧ (path = [] ↔ path' = []) := by
  by_cases top : path = []
  · by_cases top' : path' = []
    · rw [top, top']
      exact ⟨rfl, Iff.rfl⟩
    · exact absurd (same.symm.trans (congrArg spell top)) (spell_ne_root top')
  · by_cases top' : path' = []
    · exact absurd (same.trans (congrArg spell top')) (spell_ne_root top)
    · have letters := congrArg String.toList same
      rw [toList_spell top, toList_spell top'] at letters
      exact ⟨(List.cons.inj letters).2, iff_of_false top top'⟩

theorem eq_of_step {path path' : List Nat} (short : path.length ≤ 1) (short' : path'.length ≤ 1)
    (spelled : digits path = digits path') (top : path = [] ↔ path' = []) : path = path' := by
  cases path with
  | nil => exact (top.mp rfl).symm
  | cons number rest =>
    cases path' with
    | nil => exact absurd (top.mpr rfl) (List.cons_ne_nil _ _)
    | cons number' rest' =>
      obtain rfl := List.eq_nil_of_length_eq_zero (Nat.le_zero.mp (Nat.le_of_succ_le_succ short))
      obtain rfl := List.eq_nil_of_length_eq_zero (Nat.le_zero.mp (Nat.le_of_succ_le_succ short'))
      rw [digits_singleton_injective spelled]

/-- Labels can tell the paths of a complete tree apart just if none of them goes further than one step or no number has
two digits but ten. -/
theorem nodup_spelled (depth : Nat) : ((paths branching depth).map spell).Nodup ↔ depth ≤ 1 ∨ branching ≤ 10 := by
  constructor
  · intro distinct
    by_contra! large
    have twice : [1, 1] ∈ paths branching depth := mem_paths.mpr ⟨large.1, by simp; omega⟩
    have eleventh : [11] ∈ paths branching depth := mem_paths.mpr ⟨by simp; omega, by simp; omega⟩
    exact absurd (List.inj_on_of_nodup_map distinct twice eleventh (by decide)) (by decide)
  · intro small
    refine (nodup_paths depth).map_on fun path hpath path' hpath' same => ?_
    obtain ⟨short, numbered⟩ := mem_paths.mp hpath
    obtain ⟨short', numbered'⟩ := mem_paths.mp hpath'
    obtain ⟨spelled, top⟩ := digits_of_spell same
    rcases small with shallow | narrow
    · exact eq_of_step (short.trans shallow) (short'.trans shallow) spelled top
    · have upToTen {p : List Nat} (h : ∀ number ∈ p, 1 ≤ number ∧ number ≤ branching) :
          ∀ number ∈ p, 1 ≤ number ∧ number ≤ 10 := fun number hnumber =>
        ⟨(h number hnumber).1, (h number hnumber).2.trans narrow⟩
      rw [← numbers_digits (upToTen numbered), spelled, numbers_digits (upToTen numbered')]

/-! ### Random trees -/

section Random
variable (seed : UInt64) (depth : Nat)

theorem random_labels : (random seed depth branching).preorder.map (·.label) = (paths branching depth).map spell :=
  grow_labels depth [] (Generator.ofSeed seed)

theorem random_size : (random seed depth branching).size = ((List.range (depth + 1)).map (branching ^ ·)).sum := by
  rw [size, ← List.length_map (·.label), random_labels, List.length_map, length_paths]

theorem random_labelled : ∀ node ∈ (random seed depth branching).preorder, node.label ≠ "" := by
  intro node hnode
  have hlabel := List.mem_map_of_mem (f := (·.label)) hnode
  rw [random_labels] at hlabel
  obtain ⟨path, -, spelled⟩ := List.mem_map.mp hlabel
  exact spelled ▸ spell_ne_empty path

theorem random_evaluated : ∀ node ∈ (random seed depth branching).preorder, node.Evaluated :=
  grow_evaluated depth "root" (Generator.ofSeed seed)

theorem random_accepted : (∃ t, GameTree.ofSpec (random seed depth branching) = .ok t) ↔ depth ≤ 1 ∨ branching ≤ 10 := by
  have accepted : (∃ t, GameTree.ofSpec (random seed depth branching) = .ok t)
      ↔ Sound (random seed depth branching).preorder := by
    rw [← check_eq_ok]
    exact ⟨fun ⟨t, h⟩ => (GameTree.ofSpec_eq_ok.mp h).1, fun h => ⟨_, GameTree.ofSpec_eq_ok.mpr ⟨h, rfl⟩⟩⟩
  rw [accepted, ← nodup_spelled, ← random_labels seed]
  exact ⟨Sound.distinct, fun distinct => ⟨random_labelled seed depth, distinct, fun node hnode =>
    (random_evaluated seed depth node hnode).leaf.mpr⟩⟩

/-- Nothing is wrong with a random tree but a label that is used twice. -/
theorem random_refused {e : TreeError} (h : GameTree.ofSpec (random seed depth branching) = .error e) :
    ∃ label, e = .duplicateLabel label := by
  obtain ⟨before, node, after, split, -, fault⟩ := check_eq_error.mp (GameTree.ofSpec_eq_error.mp h)
  have hnode : node ∈ (random seed depth branching).preorder := split ▸ by simp
  cases fault with
  | unlabelled none => exact absurd none (random_labelled seed depth node hnode)
  | repeated _ _ => exact ⟨_, rfl⟩
  | unevaluated _ _ leaf none => exact absurd none ((random_evaluated seed depth node hnode).leaf.mpr leaf)

end Random

/-- What a random tree is, and when it can be taken for a tree. -/
structure Generated (branching depth : Nat) (s : TreeSpec) : Prop where
  complete : Complete branching depth s
  size : s.size = ((List.range (depth + 1)).map (branching ^ ·)).sum
  evaluated : ∀ node ∈ s.preorder, node.Evaluated
  labels : s.preorder.map (·.label) = (paths branching depth).map spell
  accepted : (∃ t, GameTree.ofSpec s = .ok t) ↔ depth ≤ 1 ∨ branching ≤ 10
  refused : ∀ e, GameTree.ofSpec s = .error e → ∃ label, e = .duplicateLabel label

/-- A random tree is complete, with labels that spell the paths to its nodes. It is refused only where two paths are
spelled alike, which takes an eleventh child and a second step. -/
theorem random_generated (seed : UInt64) (depth branching : Nat) :
    Generated branching depth (random seed depth branching) where
  complete := grow_complete depth "root" (Generator.ofSeed seed)
  size := random_size seed depth
  evaluated := random_evaluated seed depth
  labels := random_labels seed depth
  accepted := random_accepted seed depth
  refused _ := random_refused seed depth

/-- The first child of the first child and the eleventh child have one label. -/
theorem random_eleven : spell [1, 1] = spell [11] ∧
    ∃ label, GameTree.ofSpec (random 7 2 11) = .error (.duplicateLabel label) := by
  refine ⟨by decide, ?_⟩
  cases h : GameTree.ofSpec (random 7 2 11) with
  | ok t => exact absurd ((random_accepted 7 2).mp ⟨t, h⟩) (by decide)
  | error e =>
    obtain ⟨label, rfl⟩ := random_refused 7 2 h
    exact ⟨label, rfl⟩

end TreeSpec

end Rationale
