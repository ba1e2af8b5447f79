import Rationale.Proofs.NormalForms
import Rationale.Proofs.Texts

/-!
Normal forms read the same. In a formula all marks between items are alike, so a conjunction inside another can be
opened without a trace in the text. In a sentence the last mark differs from the others, and there a conjunction must
not stand in another. The normal form also drops empty conjunctions with what rests on them, which leaves marks behind;
where there are none, it has the text of the proof it is taken of.
-/

namespace Rationale

open List

namespace RenderOptions

variable {options : RenderOptions}

/-- In a formula the marks between items are alike, the last one included. -/
theorem conjunction_of_logic (logic : options.mode = .logic) : options.conjunction = options.comma := by
  rw [conjunction, comma, logic]

theorem joined_cons (logic : options.mode = .logic) (item : List Piece) {rest : List (List Piece)} (h : rest ≠ []) :
    options.joined (item :: rest) = item ++ options.comma :: options.joined rest := by
  cases rest with
  | nil => exact absurd rfl h
  | cons next rest =>
    cases rest with
    | nil => rw [joined, joined, conjunction_of_logic logic]
    | cons last rest => rfl

theorem joined_append (logic : options.mode = .logic) {items rest : List (List Piece)} (h : items ≠ [])
    (h' : rest ≠ []) :
    options.joined (items ++ rest) = options.joined items ++ options.comma :: options.joined rest := by
  induction items with
  | nil => exact absurd rfl h
  | cons item items ih =>
    cases items with
    | nil => exact joined_cons logic item h'
    | cons next items =>
      rw [cons_append, joined_cons logic item (by simp), ih (cons_ne_nil _ _), joined_cons logic item (cons_ne_nil _ _)]
      simp only [append_assoc, cons_append]

/-- In a formula it does not matter how the items are put together. -/
theorem joined_flatMap (logic : options.mode = .logic) {α : Type} {f : α → List (List Piece)} :
    ∀ {l : List α}, (∀ a ∈ l, f a ≠ []) →
      options.joined (l.flatMap f) = options.joined (l.map fun a => options.joined (f a))
  | [], _ => rfl
  | [a], _ => by rw [flatMap_singleton]; rfl
  | a :: b :: l, h => by
    have rest := joined_flatMap logic fun c hc => h c (mem_cons_of_mem a hc)
    have some_left : (b :: l).flatMap f ≠ [] := by
      rw [flatMap_cons]
      exact append_ne_nil_of_left_ne_nil (h b (mem_cons_of_mem a mem_cons_self)) _
    rw [flatMap_cons, joined_append logic (h a mem_cons_self) some_left, rest]
    exact (joined_cons logic _ (cons_ne_nil _ _)).symm

end RenderOptions

namespace Proof

variable {options : RenderOptions}

/-- A conjunction has no conjunction among its items. -/
def Unnested (p : Proof) : Prop := p.isConj = true → ∀ q ∈ p.children, q.isConj = false

instance : DecidablePred Unnested := fun p =>
  inferInstanceAs (Decidable (p.isConj = true → ∀ q ∈ p.children, q.isConj = false))

theorem joined_conjuncts (p : Proof) : options.joined (p.conjuncts.map (pieces options)) = p.pieces options := by
  cases p with
  | conj items => exact (pieces_conj options items).symm
  | _ => rfl

theorem conjuncts_ne_nil {p : Proof} (h : p.isEmpty = false) : p.conjuncts ≠ [] := by
  cases p with
  | conj items =>
    rintro rfl
    cases h
  | _ => exact cons_ne_nil _ _

theorem pieces_all (items : List Proof) :
    (all items).pieces options = options.joined ((items.flatMap conjuncts).map (pieces options)) := by
  rw [all, all?]
  split
  · rename_i none_left
    rw [none_left]
    exact pieces_conj options []
  · rename_i p one_left
    rw [one_left]
    rfl
  · exact pieces_conj options _

/-- A conjunction of nonempty items reads as before when the conjunctions among its items are opened, in sentences if
there are none. -/
theorem pieces_all_of_filled {items : List Proof} (filled : ∀ p ∈ items, p.isEmpty = false)
    (level : options.mode = .logic ∨ ∀ p ∈ items, p.isConj = false) :
    (all items).pieces options = (conj items).pieces options := by
  rw [pieces_all, pieces_conj]
  rcases level with logic | unnested
  · have apart : ∀ p ∈ items, p.conjuncts.map (pieces options) ≠ [] := fun p hp =>
      mt map_eq_nil_iff.mp (conjuncts_ne_nil (filled p hp))
    rw [map_flatMap, RenderOptions.joined_flatMap logic apart]
    simp only [joined_conjuncts]
  · rw [flatMap_conjuncts unnested]

theorem pieces_mapChildren {f : Proof → Proof} {p : Proof}
    (h : ∀ q ∈ p.children, (f q).pieces options = q.pieces options) :
    (mapChildren f p).pieces options = p.pieces options := by
  cases p with
  | conj items =>
    rw [mapChildren_conj, pieces_conj, pieces_conj, map_map]
    exact congrArg options.joined (map_congr_left h)
  | implies p c d o => rw [mapChildren_implies, pieces_implies, pieces_implies, h p mem_cons_self]
  | conditional owner c branch =>
    rw [mapChildren_conditional, pieces_conditional, pieces_conditional, Option.map_map, h c mem_cons_self]
    exact congrArg (options.joined <| _ :: Option.toList ·)
      (Option.map_congr fun q hq => h q (mem_cons_of_mem _ (Option.mem_toList.mpr hq)))
  | group c membership members n d o =>
    have why : (membership.map f).map (pieces options) = membership.map (pieces options) := by
      rw [Option.map_map]
      exact Option.map_congr fun q hq => h q (mem_append_left _ (Option.mem_toList.mpr hq))
    have each : (members.map (Member.map f)).map (fun m => m.proof.pieces options ++ sharedMark m.labels)
        = members.map fun m => m.proof.pieces options ++ sharedMark m.labels := by
      rw [map_map]
      exact map_congr_left fun m hm =>
        congrArg (· ++ sharedMark m.labels) (h m.proof (mem_append_right _ (mem_map_of_mem hm)))
    rw [mapChildren_group, pieces_group, pieces_group, groupItems, groupItems, why, each]
  | annotated p note => rw [mapChildren_annotated, pieces_annotated, pieces_annotated, h p mem_cons_self]
  | _ => rfl

theorem unnested_mapChildren {f : Proof → Proof} {p : Proof} (h : p.Unnested) (fits : ∀ q ∈ p.children, q.Fits (f q)) :
    (mapChildren f p).Unnested := by
  intro conj
  rw [isConj_mapChildren] at conj
  rw [children_mapChildren]
  exact forall_mem_map.mpr fun q hq => (fits q hq).conj (h conj q hq)

/-! ### The step -/

section Step
variable {p : Proof} (filled : ∀ q ∈ p.children, q.isEmpty = false)

include filled

/-- Where no part is empty, there is work for the step at conjunctions only. -/
theorem normalStep_of_not_conj (single : p.isConj = false) : normalStep p = p := by
  cases p with
  | conj items => cases single
  | implies p c d o => rw [normalStep, if_neg (Bool.eq_false_iff.mp (filled p mem_cons_self))]
  | conditional owner c branch =>
    have kept : branch.filter (!·.isEmpty) = branch :=
      filter_branch fun q hq => filled q (mem_cons_of_mem _ (Option.mem_toList.mpr hq))
    rw [normalStep, kept, if_neg (Bool.eq_false_iff.mp (filled c mem_cons_self))]
  | _ => rfl

/-- Unless a part is empty, the step makes no conjunction of what is none, and nothing empty of what is not. -/
theorem fits_normalStep (normal : ∀ q ∈ p.children, q.Every Normal) : p.Fits (normalStep p) := by
  cases hp : p.isConj with
  | false =>
    rw [normalStep_of_not_conj filled hp]
    exact ⟨id, id⟩
  | true =>
    cases p with
    | conj items =>
      refine ⟨nofun, fun some_item => ?_⟩
      have whole : items.filter (!·.isEmpty) = items := filter_nonempty filled
      -- An opened item could bring an empty conjunction to the top, if it were not in normal form.
      have each := normal_opened_items fun q (hq : q ∈ items) => normal q hq
      rw [whole] at each
      rw [normalStep, whole, all, all?]
      split
      · rename_i none_left
        cases items with
        | nil => cases some_item
        | cons p rest =>
          exact absurd (flatMap_eq_nil_iff.mp none_left p mem_cons_self) (conjuncts_ne_nil (filled p mem_cons_self))
      · rename_i q one_left
        exact (each q (one_left ▸ mem_singleton_self q)).2.2
      · rename_i some_left _
        exact (isEmpty_conj _).trans (isEmpty_eq_false_iff.mpr some_left)
    | _ => cases hp

theorem pieces_normalStep (level : options.mode = .logic ∨ p.Unnested) :
    (normalStep p).pieces options = p.pieces options := by
  cases hp : p.isConj with
  | false => rw [normalStep_of_not_conj filled hp]
  | true =>
    cases p with
    | conj items =>
      have whole : items.filter (!·.isEmpty) = items := filter_nonempty filled
      rw [normalStep, whole]
      exact pieces_all_of_filled filled (level.imp_right fun unnested => unnested rfl)
    | _ => cases hp

end Step

theorem fits_normalize {p : Proof} (filled : p.Every fun q => q.isEmpty = false) : p.Fits p.normalize := by
  induction p using induct_children with
  | step p ih =>
    have parts := (every_iff.mp filled).2
    rw [normalize_eq]
    refine (fits_mapChildren _ p).trans (fits_normalStep ?_ ?_)
    · rw [children_mapChildren]
      exact forall_mem_map.mpr fun q hq => (ih q hq (parts q hq)).nonempty (every_iff.mp (parts q hq)).1
    · rw [children_mapChildren]
      exact forall_mem_map.mpr fun q _ => every_normal_normalize q

theorem pieces_normalize {p : Proof} (filled : p.Every fun q => q.isEmpty = false)
    (level : options.mode = .logic ∨ p.Every Unnested) : p.normalize.pieces options = p.pieces options := by
  induction p using induct_children with
  | step p ih =>
    have parts := (every_iff.mp filled).2
    -- The step meets the parts in normal form: they are to be as little empty, and as little conjunctions, as before.
    have fits : ∀ q ∈ p.children, q.Fits q.normalize := fun q hq => fits_normalize (parts q hq)
    have same : ∀ q ∈ p.children, q.normalize.pieces options = q.pieces options := fun q hq =>
      ih q hq (parts q hq) (level.imp_right fun h => (every_iff.mp h).2 q hq)
    rw [normalize_eq, pieces_normalStep, pieces_mapChildren same]
    · rw [children_mapChildren]
      exact forall_mem_map.mpr fun q hq => (fits q hq).nonempty (every_iff.mp (parts q hq)).1
    · exact level.imp_right fun h => unnested_mapChildren (every_iff.mp h).1 fits

/-- A proof without empty conjunctions has the formula of its normal form, and its sentence if no conjunction stands
directly in another. -/
theorem render_normalize {p : Proof} (filled : p.Every fun q => q.isEmpty = false) :
    (∀ printDepth, p.normalize.render ⟨.logic, printDepth⟩ = p.render ⟨.logic, printDepth⟩) ∧
      (p.Every Unnested → ∀ printDepth, p.normalize.render ⟨.verbal, printDepth⟩ = p.render ⟨.verbal, printDepth⟩) := by
  refine ⟨fun printDepth => ?_, fun unnested printDepth => ?_⟩
  · rw [render, render, pieces_normalize filled (.inl rfl)]
  · rw [render, render, pieces_normalize filled (.inr unnested)]

/-- A conjunction inside another reads otherwise in a sentence when it is opened. -/
example :
    let leaf label := claim ⟨label, .is "leaf", false⟩
    let p := conj [leaf "a", conj [leaf "b", leaf "c"]]
    p.render ⟨.verbal, false⟩ = "a is leaf and b is leaf and c is leaf" ∧
      p.normalize.render ⟨.verbal, false⟩ = "a is leaf, b is leaf and c is leaf" := by
  decide +kernel

end Proof

/-- A reason that the normal form shortens without a change to its text: a condition alone in a conjunction, and a
conditional alone in another. -/
def Suit.excuse : Proof :=
  .implies (.conj [.conditional "safe" (.conj [.claim ⟨"clubs", .is "black", false⟩])
    (some (.conj [.claim ⟨"clubs", .compared "better" "hearts", false⟩,
      .claim ⟨"clubs", .compared "better" "spades", true⟩]))]) ⟨"clubs", .is "safe", false⟩ 2 ⟨"safe", .boolean⟩

theorem Suit.excuse_reads : (excuse.Every fun q => q.isEmpty = false) ∧ excuse.Every Proof.Unnested ∧
    excuse.normalize.preorder.length < excuse.preorder.length ∧
    (∀ printDepth, excuse.normalize.render ⟨.logic, printDepth⟩ = excuse.render ⟨.logic, printDepth⟩) ∧
    ∀ printDepth, excuse.normalize.render ⟨.verbal, printDepth⟩ = excuse.render ⟨.verbal, printDepth⟩ := by
  have filled : ∀ q ∈ excuse.preorder, q.isEmpty = false := by decide
  have unnested : ∀ q ∈ excuse.preorder, q.Unnested := by decide
  obtain ⟨formula, sentence⟩ := Proof.render_normalize filled
  exact ⟨filled, unnested, by decide, formula, sentence unnested⟩

end Rationale
