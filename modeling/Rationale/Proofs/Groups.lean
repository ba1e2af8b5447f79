import Rationale.Proofs.Sources

/-!
The books of group comparisons. A group comparison starts with one label for each member of its group and with nothing
left out. A compaction moves labels together, a relevance tactic leaves entries out and counts one for each; so the
labels and the count never exceed the group, and they make up for all of it as long as no relevance tactic comes
after a compaction, when an entry may stand for several members.
-/

namespace Rationale

open List

namespace Proof

/-- The labels of all members. -/
def labels (members : List (Member Proof)) : List String := members.flatMap (·.labels)

@[simp] theorem labels_nil : labels [] = [] := rfl

@[simp] theorem labels_cons (m : Member Proof) (members : List (Member Proof)) :
    labels (m :: members) = m.labels ++ labels members := flatMap_cons

theorem labels_map (f : Proof → Proof) (members : List (Member Proof)) :
    labels (members.map (Member.map f)) = labels members := by
  unfold labels
  rw [flatMap_map]
  rfl

theorem length_le_labels {members : List (Member Proof)} (named : ∀ m ∈ members, m.labels ≠ []) :
    members.length ≤ (labels members).length := by
  induction members with
  | nil => exact Nat.le_refl _
  | cons m rest ih =>
    have := List.length_pos_of_ne_nil (named m mem_cons_self)
    have := ih fun m hm => named m (mem_cons_of_mem _ hm)
    rw [labels_cons, length_append, length_cons]
    omega

theorem length_labels_single {members : List (Member Proof)} (single : ∀ m ∈ members, m.labels.length = 1) :
    (labels members).length = members.length := by
  induction members with
  | nil => rfl
  | cons m rest ih =>
    rw [labels_cons, length_append, length_cons, ih fun m hm => single m (mem_cons_of_mem _ hm),
      single m mem_cons_self, Nat.add_comm]

theorem labels_fold (x : Member Proof) : ∀ kept : List (Proof × Member Proof),
    labels ((fold x kept).map (·.2)) ~ labels (kept.map (·.2)) ++ x.labels
  | [] => Perm.of_eq (append_nil _)
  | (key, m) :: rest => by
    unfold fold
    split
    · rw [map_cons, map_cons, labels_cons, labels_cons, append_assoc, append_assoc]
      exact perm_append_comm.append_left _
    · rw [map_cons, map_cons, labels_cons, labels_cons, append_assoc]
      exact (labels_fold x rest).append_left _

theorem labels_compacted (members : List (Member Proof)) (kept : List (Proof × Member Proof)) :
    labels ((members.foldl (fun kept x => fold x kept) kept).map (·.2)) ~
      labels (kept.map (·.2)) ++ labels members := by
  induction members generalizing kept with
  | nil => exact Perm.of_eq (append_nil _).symm
  | cons x rest ih =>
    refine (ih (fold x kept)).trans ?_
    rw [labels_cons, ← append_assoc]
    exact (labels_fold x kept).append_right _

theorem named_fold {x : Member Proof} (hx : x.labels ≠ []) : ∀ {kept : List (Proof × Member Proof)},
    (∀ m ∈ kept, m.2.labels ≠ []) → ∀ m ∈ fold x kept, m.2.labels ≠ []
  | [], _ => forall_mem_singleton.mpr hx
  | (key, m) :: rest, h => by
    obtain ⟨hm, hrest⟩ := forall_mem_cons.mp h
    unfold fold
    split
    · exact forall_mem_cons.mpr ⟨fun he => hm (append_eq_nil_iff.mp he).1, hrest⟩
    · exact forall_mem_cons.mpr ⟨hm, named_fold hx hrest⟩

theorem named_compacted {members : List (Member Proof)} (named : ∀ m ∈ members, m.labels ≠ [])
    {kept : List (Proof × Member Proof)} (hkept : ∀ m ∈ kept, m.2.labels ≠ []) :
    ∀ m ∈ members.foldl (fun kept x => fold x kept) kept, m.2.labels ≠ [] := by
  induction members generalizing kept with
  | nil => exact hkept
  | cons x rest ih =>
    exact ih (fun m hm => named m (mem_cons_of_mem _ hm)) (named_fold (named x mem_cons_self) hkept)

end Proof

namespace Tactic

def isRelevance : Tactic → Bool
  | .onlyRelevant _ => true
  | _ => false

def isCompaction : Tactic → Bool
  | .compactSame => true
  | _ => false

/-- No relevance tactic comes after a compaction. -/
def CompactsLast (ts : List Tactic) : Prop :=
  ts.Pairwise fun t t' => t.isCompaction = true → t'.isRelevance = false

end Tactic

/-- The books of a comparison with a group: every entry stands for some members, these are members of the group, and
with those left out they are not too many. They are `whole` if all members are accounted for, and `single` if no entry
stands for more than one. -/
structure Proof.Books (single whole : Prop) (group : List String) (members : List (Member Proof)) (omitted : Nat) :
    Prop where
  named : ∀ m ∈ members, m.labels ≠ []
  drawn : labels members <+~ group
  bounded : omitted + (labels members).length ≤ group.length
  whole : whole → omitted + (labels members).length = group.length
  single : single → ∀ m ∈ members, m.labels.length = 1

namespace Proof.Books

variable {single whole : Prop} {group : List String} {members : List (Member Proof)} {omitted : Nat}

theorem mono (h : Books single whole group members omitted) {single' whole' : Prop} (hs : single' → single)
    (hw : whole' → whole) : Books single' whole' group members omitted :=
  ⟨h.named, h.drawn, h.bounded, h.whole ∘ hw, h.single ∘ hs⟩

theorem map (h : Books single whole group members omitted) (f : Proof → Proof) :
    Books single whole group (members.map (Member.map f)) omitted where
  named := forall_mem_map.mpr h.named
  drawn := by rw [labels_map]; exact h.drawn
  bounded := by rw [labels_map]; exact h.bounded
  whole hw := by rw [labels_map]; exact h.whole hw
  single hs := forall_mem_map.mpr (h.single hs)

/-- A relevance tactic counts one for every entry that it leaves out. -/
theorem relevant (h : Books single whole group members omitted) (mode : RelevanceMode) :
    Books single (whole ∧ single) group ((ranked mode members).take mode.count)
      (omitted + (members.length - mode.count)) := by
  have perm := ranked_perm mode members
  have kept : ∀ m ∈ (ranked mode members).take mode.count, m ∈ members := fun m hm => perm.subset (mem_of_mem_take hm)
  have left : ∀ m ∈ (ranked mode members).drop mode.count, m ∈ members := fun m hm => perm.subset (mem_of_mem_drop hm)
  have total : (labels members).length = (labels ((ranked mode members).take mode.count)).length
      + (labels ((ranked mode members).drop mode.count)).length := by
    rw [← length_append, labels, labels, labels, ← flatMap_append, take_append_drop]
    exact (perm.flatMap_right _).length_eq.symm
  have dropped : ((ranked mode members).drop mode.count).length = members.length - mode.count := by
    rw [length_drop, perm.length_eq]
  have atLeast := length_le_labels fun m hm => h.named m (left m hm)
  have hbounded := h.bounded
  refine ⟨fun m hm => h.named m (kept m hm), ?_, by omega, fun ⟨hw, hs⟩ => ?_, fun hs m hm => h.single hs m (kept m hm)⟩
  · exact (((take_sublist _ _).flatMap _).subperm.trans (perm.flatMap_right _).subperm).trans h.drawn
  · have exactly := length_labels_single fun m hm => h.single hs m (left m hm)
    have hwhole := h.whole hw
    omega

/-- A compaction keeps every label. -/
theorem compacted (h : Books single whole group members omitted) :
    Books False whole group ((members.foldl (fun kept x => fold x kept) []).map (·.2)) omitted := by
  have perm : labels ((members.foldl (fun kept x => fold x kept) []).map (·.2)) ~ labels members :=
    labels_compacted members []
  refine ⟨forall_mem_map.mpr (named_compacted h.named fun _ hm => by cases hm), perm.subperm.trans h.drawn, ?_, ?_,
    False.elim⟩
  · rw [perm.length_eq]
    exact h.bounded
  · rw [perm.length_eq]
    exact h.whole

end Proof.Books

section Draws
variable {N : Type} [Node N]

/-- The group that a conclusion was drawn about. -/
def Framework.Draws (F : Framework N) (conclusion : Claim) (origin : Origin) (group : List N) : Prop :=
  ∃ (s : Site N) (name : String) (positive : Bool), s.framework = F ∧ F.evaluateGroup name s.node = .ok group ∧
    conclusion = s.groupConclusion origin.adjective name positive (group.map (F.compare origin.adjective s.node))

/-- If the proof is a comparison with a group, its books are in order. -/
def Framework.Booked (F : Framework N) (single whole : Prop) (p : Proof) : Prop :=
  ∀ c membership members omitted d o, p = .group c membership members omitted d o →
    ∃ group, F.Draws c o group ∧ Proof.Books single whole (group.map Node.label) members omitted

namespace Framework.Booked

variable {F : Framework N} {single whole : Prop}

theorem mono {single' whole' : Prop} (hs : single' → single) (hw : whole' → whole) (p : Proof)
    (h : F.Booked single whole p) : F.Booked single' whole' p := fun c membership members omitted d o hp => by
  obtain ⟨group, draws, books⟩ := h c membership members omitted d o hp
  exact ⟨group, draws, books.mono hs hw⟩

theorem plain (p : Proof) (hp : p.isPlain = true) : F.Booked single whole p := by
  rintro c membership members omitted d o rfl
  cases hp

theorem blind : Proof.Blind (F.Booked single whole) := by
  intro f p h c membership members omitted d o hp
  cases p with
  | group c' membership' members' omitted' d' o' =>
    rw [Proof.mapChildren_group] at hp
    cases hp
    obtain ⟨group, draws, books⟩ := h _ _ _ _ _ _ rfl
    exact ⟨group, draws, books.map f⟩
  | _ => simp at hp

/-- What a tactic leaves of the books. -/
theorem touch (t : Tactic) (p : Proof) (hp : p.isPlain = false) (h : F.Booked single whole p) :
    F.Booked (single ∧ t.isCompaction = false) (whole ∧ (t.isRelevance = true → single)) (t.touch p) := by
  cases p with
  | group c membership members omitted d o =>
    obtain ⟨group, draws, books⟩ := h _ _ _ _ _ _ rfl
    intro c' membership' members' omitted' d' o' heq
    cases t with
    | onlyRelevant mode =>
      cases heq
      exact ⟨group, draws, (books.relevant mode).mono And.left fun hw => ⟨hw.1, hw.2 rfl⟩⟩
    | compactSame =>
      cases heq
      exact ⟨group, draws, books.compacted.mono (fun hs => by cases hs.2) And.left⟩
    | _ =>
      cases heq
      exact ⟨group, draws, books.mono And.left And.left⟩
  | failure text =>
    intro c membership members omitted d o heq
    cases t <;> cases heq
  | _ => cases hp

/-- Tactics without a compaction before a relevance tactic keep the books whole. -/
theorem applyAll {ts done : List Tactic} (last : Tactic.CompactsLast (done ++ ts)) {p : Proof}
    (h : p.Every (F.Booked (∀ t ∈ done, t.isCompaction = false) True)) :
    (Tactic.applyAll ts p).Every (F.Booked (∀ t ∈ done ++ ts, t.isCompaction = false) True) := by
  induction ts generalizing done p with
  | nil => rwa [append_nil]
  | cons t ts ih =>
    rw [← singleton_append, ← append_assoc] at last ⊢
    refine ih last ?_
    refine (t.every_apply plain blind blind (touch t) h).mono (mono (fun single => ?_) fun _ => ⟨trivial, ?_⟩)
    · obtain ⟨hdone, ht⟩ := forall_mem_append.mp single
      exact ⟨hdone, ht t (mem_singleton_self t)⟩
    · intro relevance t' ht'
      have := (pairwise_append.mp (pairwise_append.mp last).1).2.2 t' ht' t (mem_singleton_self t)
      cases hc : t'.isCompaction with
      | false => rfl
      | true => exact absurd relevance (by rw [this hc]; decide)

/-- A tactic keeps what it can. -/
theorem applyAll_of {ts : List Tactic} (hs : single → ∀ t ∈ ts, t.isCompaction = false)
    (hw : whole → ∀ t ∈ ts, t.isRelevance = true → single) {p : Proof} (h : p.Every (F.Booked single whole)) :
    (Tactic.applyAll ts p).Every (F.Booked single whole) := by
  refine Tactic.every_applyAll plain blind (fun t ht q hq hbooked => ?_) h
  exact mono (fun single => ⟨single, hs single t ht⟩) (fun whole => ⟨whole, hw whole t ht⟩) _ (touch t q hq hbooked)

end Framework.Booked

/-! ### Explanations -/

/-- No relevance tactic comes after a compaction, whichever adjectives are explained inside one another before the
tactics of the framework are applied. -/
def Framework.CompactsLast {N : Type} (F : Framework N) : Prop :=
  ∀ chain ⊆ F.adjectives, Tactic.CompactsLast (chain.flatMap (·.tactics) ++ F.tactics)

variable {F : Framework N}

theorem Framework.booked_puts {p : Proof} (h : F.Puts (fun _ => True) p) : F.Booked True True p := by
  have plainly {q : Proof} (failure : ∃ text, q = .failure text) : F.Booked True True q := by
    obtain ⟨text, rfl⟩ := failure
    exact fun _ _ _ _ _ _ hp => by cases hp
  cases h with
  | unknown => exact plainly ⟨_, rfl⟩
  | circular => exact plainly ⟨_, rfl⟩
  | undecided => exact plainly (Proof.cannotEvaluate_eq _ _ _)
  | @site s a _ hF _ _ hp =>
    subst hF
    cases hp with
    | @group comparison group positive members membership proof _ _ evaluated =>
      intro c membership' members' omitted d o heq
      cases heq
      have hlabels : Proof.labels (members.map fun m =>
          (⟨[Node.label m], s.relevance comparison m, proof m⟩ : Member Proof)) = members.map Node.label := by
        rw [Proof.labels, flatMap_map]
        exact map_eq_flatMap.symm
      have total := (Nat.zero_add _).trans (congrArg length hlabels)
      exact ⟨members, ⟨s, group, positive, rfl, evaluated, rfl⟩, {
        named := forall_mem_map.mpr fun _ _ => cons_ne_nil _ _
        drawn := (Perm.of_eq hlabels).subperm
        bounded := Nat.le_of_eq total
        whole := fun _ => total
        single := fun _ => forall_mem_map.mpr fun _ _ => rfl }⟩
    | unknown => exact plainly ⟨_, rfl⟩
    | undecided => exact plainly (Proof.cannotEvaluate_eq _ _ _)
    | ungrouped => exact plainly (Proof.cannotEvaluate_eq _ _ _)
    | nowhere => exact plainly ⟨_, rfl⟩
    | again => exact plainly ⟨_, rfl⟩
    | unpaired => exact plainly ⟨_, rfl⟩

theorem Framework.sustains_booked {single whole : Prop}
    (tactics : ∀ a ∈ F.adjectives, ∀ p : Proof, p.Every (F.Booked single whole) →
      (Tactic.applyAll a.tactics p).Every (F.Booked single whole)) :
    F.Sustains (fun _ => True) (F.Booked single whole) where
  plain := Booked.plain
  puts p hp := Booked.mono (fun _ => trivial) (fun _ => trivial) p (booked_puts hp)
  asks _ _ _ _ := trivial
  tactics := tactics

theorem Framework.bounded_explanation (settings : Settings) (goal : Goal N) :
    (F.explanation settings goal).Every (F.Booked False False) :=
  (sustains_booked fun _ _ _ => Booked.applyAll_of False.elim False.elim).explanation Booked.plain Booked.blind
    (fun _ => Booked.applyAll_of False.elim False.elim) settings trivial

theorem Framework.whole_explanation (last : F.CompactsLast) (settings : Settings) (goal : Goal N) :
    (F.explanation settings goal).Every (F.Booked False True) := by
  by_cases compacts : ∃ b ∈ F.adjectives, ∃ t ∈ b.tactics, t.isCompaction = true
  · -- Any tactics may come after those of this adjective, so none of them is a relevance tactic.
    obtain ⟨b, hb, t, ht, hcompaction⟩ := compacts
    have after {a : Adjective N} (ha : a ∈ F.adjectives) {t' : Tactic} (ht' : t' ∈ a.tactics ++ F.tactics) :
        t'.isRelevance = false := by
      have sub : [b, a] ⊆ F.adjectives := cons_subset.mpr ⟨hb, cons_subset.mpr ⟨ha, nil_subset _⟩⟩
      have chain := last [b, a] sub
      rw [flatMap_cons, flatMap_singleton, append_assoc] at chain
      exact (pairwise_append.mp chain).2.2 t ht t' ht' hcompaction
    have irrelevant {ts : List Tactic} (h : ∀ t ∈ ts, t.isRelevance = false) {p : Proof}
        (hp : p.Every (F.Booked False True)) : (Tactic.applyAll ts p).Every (F.Booked False True) :=
      Booked.applyAll_of False.elim (fun _ t ht hrelevance => by rw [h t ht] at hrelevance; cases hrelevance) hp
    refine (sustains_booked fun a ha p => irrelevant fun t' ht' => ?_).explanation Booked.plain Booked.blind
      (fun p => irrelevant fun t' ht' => ?_) settings trivial
    · exact after ha (mem_append_left _ ht')
    · exact after hb (mem_append_right _ ht')
  · -- Entries stay single until the tactics of the framework.
    have none : ∀ a ∈ F.adjectives, ∀ t ∈ a.tactics, t.isCompaction = false := fun a ha t ht =>
      Bool.eq_false_iff.mpr fun hc => compacts ⟨a, ha, t, ht, hc⟩
    have sustains : F.Sustains (fun _ => True) (F.Booked True True) :=
      sustains_booked fun a ha _ => Booked.applyAll_of (fun _ => none a ha) fun _ _ _ _ => trivial
    refine sustains.explanation Booked.plain Booked.blind (fun p hp => ?_) settings trivial
    have start : p.Every (F.Booked (∀ t ∈ ([] : List Tactic), t.isCompaction = false) True) :=
      hp.mono (Booked.mono (fun _ => trivial) fun h => h)
    exact (Booked.applyAll (last [] (nil_subset _)) start).mono (Booked.mono False.elim fun h => h)

/-- Every comparison with a group in an answer is about a group that the framework evaluates. Its labels are labels of
members, and with the count of those left out they are not more than the members; they are exactly as many if no
relevance tactic comes after a compaction. -/
theorem Framework.accounted_explain {settings : Settings} {node : N} {adjective : String} {other : Option N}
    {x : Argument} (answered : F.explain settings node adjective other = .ok x) {c : Claim}
    {membership : Option Proof} {members : List (Member Proof)} {omitted d : Nat} {o : Origin}
    (h : .group c membership members omitted d o ∈ x.proof.preorder) :
    ∃ group, F.Draws c o group ∧ members.flatMap (·.labels) <+~ group.map Node.label ∧
      omitted + (members.flatMap (·.labels)).length ≤ group.length ∧
      (F.CompactsLast → omitted + (members.flatMap (·.labels)).length = group.length) := by
  obtain ⟨a, goal, -, -, rfl⟩ := explain_eq_ok.mp answered
  have booked : F.Booked False F.CompactsLast (.group c membership members omitted d o) := by
    by_cases last : F.CompactsLast
    · exact Booked.mono (fun h => h) (fun _ => trivial) _ (whole_explanation last settings goal _ h)
    · exact Booked.mono (fun h => h) last _ (bounded_explanation settings goal _ h)
  obtain ⟨group, draws, books⟩ := booked _ _ _ _ _ _ rfl
  have bounded := books.bounded
  have whole := books.whole
  rw [length_map] at bounded whole
  exact ⟨group, draws, books.drawn, bounded, whole⟩

end Draws

/-! ### A group of which two members are alike -/

theorem Proof.ranked_pair (mode : RelevanceMode) (x y : Member Proof) : ranked mode [x, y]
    = if mode.mayPrecede x.relevance y.relevance = true then [x, y] else [y, x] := by
  simp [ranked, List.mergeSort, List.MergeSort.Internal.splitInTwo, List.merge]

inductive Suit
  | clubs
  | diamonds
  | hearts
  | spades
deriving DecidableEq

namespace Suit

instance : Node Suit where
  label
    | clubs => "clubs"
    | diamonds => "diamonds"
    | hearts => "hearts"
    | spades => "spades"
  same a b := decide (a = b)

/-- Clubs are better than the red suits, and not than spades. -/
def worth : Suit → Number
  | clubs => .zero false
  | spades => .infinity false
  | _ => .infinity true

/-- The suits with the given tactics. -/
def framework (tactics : List Tactic) : Framework Suit where
  nodeWord := "suit"
  adjectives := [
    { name := "worth", kind := .quantitative, getter := some fun s => .ok (.number s.worth) },
    { name := "better", kind := .comparison "worth" .greater },
    { name := "rest", kind := .nodesGroup true
      getter := some fun _ => .ok (.nodes [clubs, diamonds, hearts, spades]) },
    { name := "best", kind := .rank .max "better" "rest" }]
  tactics := tactics

end Suit

theorem Suit.tactics_eq_nil (tactics : List Tactic) : ∀ a ∈ (framework tactics).adjectives, a.tactics = [] := by
  simp [framework]

theorem Suit.accounted_compacted : ∃ x,
    (framework [.compactSame]).explain { explanationDepth := 2 } clubs "best" = .ok x ∧
    ∃ c membership members omitted d o, .group c membership members omitted d o ∈ x.proof.preorder ∧
      ∃ group, (framework [.compactSame]).Draws c o group ∧
        omitted + (members.flatMap (·.labels)).length = group.length := by
  have last : (framework [.compactSame]).CompactsLast := by
    intro chain sub
    rw [flatMap_eq_nil_iff.mpr fun a ha => tactics_eq_nil _ a (sub ha)]
    exact pairwise_singleton _ _
  obtain ⟨x, answered⟩ : ∃ x, (framework [.compactSame]).explain { explanationDepth := 2 } clubs "best" = .ok x :=
    ⟨_, rfl⟩
  obtain ⟨c, membership, members, omitted, d, o, h⟩ : ∃ c membership members omitted d o,
      .group c membership members omitted d o ∈ x.proof.preorder := by
    cases answered
    exact ⟨_, _, _, _, _, _, .tail _ (.head _)⟩
  obtain ⟨group, draws, -, -, whole⟩ := Framework.accounted_explain answered h
  exact ⟨x, answered, c, membership, members, omitted, d, o, h, group, draws, whole last⟩

/-- A relevance tactic after a compaction loses members: of three, one is left and one is said to be left out. -/
theorem Suit.undercounted : ∃ x,
    (framework [.compactSame, .onlyRelevant (.top 1)]).explain { explanationDepth := 2 } clubs "best" = .ok x ∧
    (framework [.compactSame, .onlyRelevant (.top 1)]).evaluateGroup "rest" clubs = .ok [diamonds, hearts, spades] ∧
    ∃ membership m d, .group ⟨"clubs", .comparedToGroup "better" "rest" .every, true⟩ membership [m] 1 d
      ⟨"better", .comparison⟩ ∈ x.proof.preorder ∧ m.labels = ["spades"] := by
  obtain ⟨membership, x, y, d, c, d', o, compacted, hx, hy⟩ : ∃ membership x y d c d' o,
      Tactic.compactSame.apply ((framework [.compactSame, .onlyRelevant (.top 1)]).expand { explanationDepth := 2 }
        Goal.unresolved 2 0 1 [] (.value "best" clubs))
        = .implies (.group ⟨"clubs", .comparedToGroup "better" "rest" .every, true⟩ membership [x, y] 0 d
          ⟨"better", .comparison⟩) c d' o ∧ (x.labels = ["diamonds", "hearts"] ∧ x.relevance = some (.infinity true)) ∧
        y.labels = ["spades"] ∧ y.relevance = some (.infinity false) :=
    ⟨_, _, _, _, _, _, _, rfl, ⟨rfl, rfl⟩, rfl, rfl⟩
  have later : RelevanceMode.mayPrecede (.top 1) x.relevance y.relevance = false := by
    rw [hx.2, hy.2]
    decide
  refine ⟨_, rfl, rfl, ?_⟩
  change ∃ membership m d, _ ∈ (Tactic.apply (.onlyRelevant (.top 1)) (Tactic.compactSame.apply
    ((framework [.compactSame, .onlyRelevant (.top 1)]).expand { explanationDepth := 2 }
      Goal.unresolved 2 0 1 [] (.value "best" clubs)))).normalize.preorder ∧ _
  rw [compacted]
  -- The first entry stands for two members, and is the one that is left out.
  simp only [Tactic.apply, Tactic.rewrite, Proof.normalize, Proof.transformUp_implies, Proof.transformUp_group,
    Proof.onlyRelevantStep, Proof.normalStep, Proof.isEmpty, Proof.ranked_pair, Member.map, later, RelevanceMode.count,
    map_cons, map_nil, Bool.false_eq_true, ↓reduceIte, take_succ_cons, take_zero, length_cons, length_nil, Nat.zero_add,
    Nat.reduceAdd, Nat.add_one_sub_one]
  exact ⟨_, _, _, .tail _ (Proof.mem_preorder_self _), hy.1⟩

end Rationale
