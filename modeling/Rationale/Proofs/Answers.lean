import Rationale.Proofs.Conclusions
import Rationale.Proofs.Edits
import Rationale.Proofs.Questions

/-!
Which adjectives can be asked about. A question about an adjective by its name is understood, also if the name holds
other words of questions or ends with the name of another adjective, unless it brings in the word that divides
comparisons.
-/

namespace Rationale

namespace Text

theorem lowerAfter_of_not_mem {cs : List Char} (h : 'Σ' ∉ cs) (before : List Char) :
    lowerAfter before cs = cs.flatMap lowerChar := by
  induction cs generalizing before with
  | nil => rfl
  | cons c rest ih =>
    rw [List.mem_cons, not_or] at h
    obtain ⟨other, others⟩ := h
    rw [lowerAfter, if_neg (Ne.symm other), ih others, List.flatMap_cons]

/-- A character that its lower-case form begins with is this form. -/
theorem eq_of_lowerChar_append {c : Char} {xs ys : List Char} (h : lowerChar c ++ xs = c :: ys) : xs = ys := by
  unfold lowerChar at h
  split at h
  · exact (List.cons.inj h).2
  · split at h
    · rename_i dotted
      subst dotted
      exact absurd (List.cons.inj h).1 (by decide)
    · split at h
      · exact (List.cons.inj h).2
      · exact (List.cons.inj h).2

/-- A text in lower case holds no capital sigma, so it is in lower case wherever it stands. -/
theorem not_mem_of_lowerAfter {cs before : List Char} (h : lowerAfter before cs = cs) : 'Σ' ∉ cs := by
  induction cs generalizing before with
  | nil => exact List.not_mem_nil
  | cons c rest ih =>
    rw [List.mem_cons, not_or]
    by_cases sigma : c = 'Σ'
    · subst sigma
      rw [lowerAfter, if_pos rfl, List.singleton_append, List.cons.injEq] at h
      split at h
      · exact absurd h.1 (by decide)
      · exact absurd h.1 (by decide)
    · rw [lowerAfter, if_neg sigma] at h
      exact ⟨Ne.symm sigma, ih (eq_of_lowerChar_append h)⟩

theorem lowerChars_append {xs ys : List Char} (h : 'Σ' ∉ xs) (lower : lowerChars ys = ys) :
    lowerChars (xs ++ ys) = xs.flatMap lowerChar ++ ys := by
  have absent := not_mem_of_lowerAfter lower
  have whole : 'Σ' ∉ xs ++ ys := fun hmem => (List.mem_append.mp hmem).elim h absent
  rw [lowerChars, lowerAfter_of_not_mem whole, List.flatMap_append, ← lowerAfter_of_not_mem absent []]
  exact congrArg _ lower

theorem firstWord_append {w : List Char} (h : ∀ c ∈ w, isBlank c = false) (rest : List Char) :
    firstWord (w ++ ' ' :: rest) = (w, words rest) := by
  induction w with
  | nil =>
    have blank : isBlank ' ' = true := by simp [isBlank, blanks, CharClass.has]
    rw [List.nil_append, firstWord, blank, words]
    rfl
  | cons c w ih =>
    obtain ⟨here, others⟩ := List.forall_mem_cons.mp h
    rw [List.cons_append, firstWord, ih others, here]
    rfl

theorem words_append {w : List Char} (nonempty : w ≠ []) (h : ∀ c ∈ w, isBlank c = false) (rest : List Char) :
    words (w ++ ' ' :: rest) = w :: words rest := by
  simp only [words, firstWord_append h]
  rw [if_neg (by simpa using nonempty)]

theorem dropEnd_concat {p : Char → Bool} {cs : List Char} {c : Char} (keep : p c = false) :
    dropEnd p (cs ++ [c]) = cs ++ [c] := by
  simp [dropEnd, keep]

theorem dropEnd_concat_of_pos {p : Char → Bool} {cs : List Char} {c : Char} (drop : p c = true) :
    dropEnd p (cs ++ [c]) = dropEnd p cs := by
  simp [dropEnd, drop]

theorem dropEnd_append {p : Char → Bool} {xs ys : List Char} (nonempty : ys ≠ [])
    (keep : ∀ c ∈ ys.getLast?, p c = false) : dropEnd p (xs ++ ys) = xs ++ ys := by
  obtain ⟨cs, c, rfl⟩ := (List.eq_nil_or_concat ys).resolve_left nonempty
  rw [List.concat_eq_append, List.getLast?_concat] at keep
  rw [List.concat_eq_append, ← List.append_assoc]
  exact dropEnd_concat (keep c rfl)

theorem trim_concat {c d : Char} (first : isBlank c = false) (last : isBlank d = false) (cs : List Char) :
    trim (c :: cs ++ [d]) = c :: cs ++ [d] := by
  have started : (c :: cs ++ [d]).dropWhile isBlank = c :: cs ++ [d] := List.dropWhile_cons_of_neg (by simp [first])
  rw [trim, started, dropEnd_concat last]

end Text

namespace Question

open Text

theorem plain_whyIsIt {name : String} (nonempty : name ≠ "") (lower : lowerName name = name.toList)
    (spaced : [' '].intercalate (words name.toList) = name.toList) (unasked : name.toList.getLast? ≠ some '?') :
    plain ("Why is it " ++ name ++ "?") = "why is it ".toList ++ name.toList := by
  have nonempty : name.toList ≠ [] := by simpa using nonempty
  have filled : words name.toList ≠ [] := by
    intro none
    rw [none] at spaced
    exact nonempty spaced.symm
  -- One step after the other: the blanks around, the question mark, the blanks between words, lower case.
  have trimmed : trim ("Why is it " ++ name ++ "?").toList = "Why is it ".toList ++ name.toList ++ ['?'] := by
    have first : isBlank 'W' = false := by simp [isBlank, blanks, CharClass.has]
    have last : isBlank '?' = false := by simp [isBlank, blanks, CharClass.has]
    rw [String.toList_append, String.toList_append]
    exact trim_concat first last ("hy is it ".toList ++ name.toList)
  have bare : dropEnd (· == '?') ("Why is it ".toList ++ name.toList ++ ['?']) =
      "Why is it ".toList ++ name.toList := by
    rw [dropEnd_concat_of_pos rfl]
    refine dropEnd_append nonempty fun c hc => beq_eq_false_iff_ne.mpr ?_
    rintro rfl
    exact unasked hc
  have divided : words ("Why is it ".toList ++ name.toList) =
      "Why".toList :: "is".toList :: "it".toList :: words name.toList := by
    have whole : "Why is it ".toList ++ name.toList =
        "Why".toList ++ ' ' :: ("is".toList ++ ' ' :: ("it".toList ++ ' ' :: name.toList)) := rfl
    rw [whole, words_append (by decide) (by simp [isBlank, blanks, CharClass.has]),
      words_append (by decide) (by simp [isBlank, blanks, CharClass.has]),
      words_append (by decide) (by simp [isBlank, blanks, CharClass.has])]
  rw [plain, trimmed, bare, divided, List.intercalate_cons_cons, List.intercalate_cons_cons,
    List.intercalate_cons_of_ne_nil filled, spaced]
  have small : 'Σ' ∉ "Why is it ".toList := by decide
  have joined : "Why".toList ++ [' '] ++ ("is".toList ++ [' '] ++ ("it".toList ++ [' '] ++ name.toList)) =
      "Why is it ".toList ++ name.toList := rfl
  rw [joined]
  exact lowerChars_append small lower

variable {N : Type} [Node N] {F : Framework N} {node : N} {a : Adjective N}

/-- The name of the adjective can stand in a question about `it`: it is written as questions are read, belongs to no
other adjective, and does not name the node after `it`. -/
structure Askable (F : Framework N) (node : N) (a : Adjective N) : Prop where
  mem : a ∈ F.adjectives
  isPublic : a.isPublic = true
  single : a.isComparison = false
  lower : lowerName a.name = a.name.toList
  spaced : [' '].intercalate (words a.name.toList) = a.name.toList
  unasked : a.name.toList.getLast? ≠ some '?'
  alone : ∀ b ∈ F.adjectives, lowerName b.name = lowerName a.name → b = a
  further : ¬Subject F node ("it ".toList ++ a.name.toList)

/-- What ends a text about `it` after a space is no longer than the name in it. -/
theorem length_le_of_suffix_it {name other : List Char} (h : ' ' :: other <:+ "it ".toList ++ name) :
    other.length ≤ name.length := by
  have text : "it ".toList ++ name = 'i' :: 't' :: ' ' :: name := rfl
  rw [text, List.suffix_cons_iff, List.suffix_cons_iff] at h
  rcases h with h | h | h
  · simp at h
  · simp at h
  · exact Nat.le_of_succ_le_succ h.length_le

theorem infix_it_iff {name : List Char} :
    " than ".toList <:+: "it ".toList ++ name ↔ " than ".toList <:+: ' ' :: name := by
  have text : "it ".toList ++ name = 'i' :: 't' :: ' ' :: name := rfl
  rw [text, List.infix_cons_iff, List.infix_cons_iff]
  simp

theorem Askable.defined (h : Askable F node a) : F.adjective? a.name = some a := by
  cases hb : F.adjective? a.name with
  | none => exact absurd rfl (Framework.adjective?_eq_none.mp hb a h.mem)
  | some b =>
    have same : lowerName b.name = lowerName a.name := by rw [Framework.adjective?_name hb]
    rw [h.alone b (Framework.adjective?_mem hb) same]

theorem Askable.longest (h : Askable F node a) (wellNamed : F.WellNamed) :
    Longest F (!·.isComparison) ("it ".toList ++ a.name.toList) a := by
  refine ⟨⟨h.isPublic, by simp [h.single], "it".toList, ?_⟩, fun b _ ends => ?_, ?_⟩
  · rw [h.lower]
    rfl
  · rw [h.lower]
    exact length_le_of_suffix_it ends.ends
  · obtain ⟨-, before, after, stands⟩ := Framework.exists_stands wellNamed.distinct h.defined
    refine ⟨before, after, stands.adjectives, fun b hb _ same => stands.after b hb ?_⟩
    have hmem : b ∈ F.adjectives := stands.adjectives ▸ List.mem_append_right _ (List.mem_cons_of_mem _ hb)
    rw [h.alone b hmem same]

/-- A question about an adjective is understood, unless its name brings in the word that divides comparisons. -/
theorem Askable.parse?_eq_some (h : Askable F node a) (wellNamed : F.WellNamed) :
    parse? F node ("Why is it " ++ a.name ++ "?") = some ⟨a.name, none⟩ ↔
      ¬" than ".toList <:+: ' ' :: a.name.toList := by
  have text : plain ("Why is it " ++ a.name ++ "?") = "why is ".toList ++ ("it ".toList ++ a.name.toList) :=
    plain_whyIsIt (wellNamed.named a h.mem) h.lower h.spaced h.unasked
  rw [Question.parse?_eq_some, text, ← infix_it_iff]
  constructor
  · intro asks
    generalize whole : "why is ".toList ++ ("it ".toList ++ a.name.toList) = cs at asks
    generalize question : (⟨a.name, none⟩ : Question N) = q at asks
    -- What is asked is fixed, so the other forms are excluded by how they begin or by what they ask.
    cases asks with
    | main phrase =>
      obtain rfl := List.append_cancel_left whole
      exact absurd phrase h.further
    | possession => simp at whole
    | state _ _ _ _ plain =>
      obtain rfl := List.append_cancel_left whole
      exact plain
    | denial _ _ _ plain =>
      obtain rfl := List.append_cancel_left whole
      exact plain
    | comparison => exact absurd (congrArg Question.other question) nofun
  · intro plain
    refine .state .it ?_ (h.longest wellNamed) (by decide) plain h.further
    rw [h.lower]
    rfl

end Question

/-- An adjective whose name can stand in a question is explained, and the question is answered with this explanation
unless the name brings in the word that divides comparisons: then it is not understood as one about the adjective. -/
theorem Explainer.answers_askable {N : Type} [Node N] {E : Explainer N} {node : N} {F : Framework N}
    {settings : Settings} (resolved : E.resolve {} = .ok (F, settings)) (wellNamed : F.WellNamed) {a : Adjective N}
    (askable : Question.Askable F node a) :
    (Question.parse? F node ("Why is it " ++ a.name ++ "?") = some ⟨a.name, none⟩ ↔
      ¬" than ".toList <:+: ' ' :: a.name.toList) ∧
    ∃ x, E.explain node a.name = .ok x ∧ (¬" than ".toList <:+: ' ' :: a.name.toList →
      E.answer? node ("Why is it " ++ a.name ++ "?") = some x) := by
  have understood := askable.parse?_eq_some wellNamed
  obtain ⟨x, explained⟩ : ∃ x, F.explain settings node a.name = .ok x :=
    ⟨_, Framework.explain_value askable.defined askable.single node⟩
  have explained : E.explain node a.name = .ok x := by
    rw [explain, resolved]
    exact explained
  refine ⟨understood, x, explained, fun plain => ?_⟩
  have asked := Question.parse?_eq_some.mp (understood.mpr plain)
  exact Explainer.answer?_eq_some.mpr ⟨F, settings, ⟨a.name, none⟩, resolved, asked, explained⟩

namespace Coin

/-- A framework with names that end in one another and hold the words of questions. -/
def fairness : Framework Coin where
  nodeWord := "side"
  adjectives := [
    { name := "fair", kind := .boolean, getter := some fun _ => .ok (.bool true) },
    { name := "not fair", kind := .boolean, getter := some fun _ => .ok (.bool false) },
    { name := "more than fair", kind := .boolean, getter := some fun _ => .ok (.bool false) }]

def judge : Explainer Coin := { frameworks := [("fairness", fairness)] }

theorem fairness_wellNamed : fairness.WellNamed := ⟨by decide, by decide⟩

theorem fairness_askable {a : Adjective Coin} (h : a ∈ fairness.adjectives) : Question.Askable fairness heads a := by
  have distinct : (fairness.adjectives.map fun b => Question.lowerName b.name).Nodup := by decide +kernel
  have each : ∀ a ∈ fairness.adjectives, a.isPublic = true ∧ a.isComparison = false ∧
      Question.lowerName a.name = a.name.toList ∧
      [' '].intercalate (Text.words a.name.toList) = a.name.toList ∧ a.name.toList.getLast? ≠ some '?' ∧
      Question.isSubject fairness heads ("it ".toList ++ a.name.toList) = false := by decide +kernel
  obtain ⟨isPublic, single, lower, spaced, unasked, further⟩ := each a h
  refine ⟨h, isPublic, single, lower, spaced, unasked, fun b hb same => List.inj_on_of_nodup_map distinct hb h same, ?_⟩
  rw [← Question.isSubject_iff, further]
  exact Bool.false_ne_true

/-- A name may end with another one and hold a word of questions. -/
theorem judge_answers : ∃ a ∈ fairness.adjectives, a.name = "not fair" ∧ ∃ x, judge.explain heads a.name = .ok x ∧
    judge.answer? heads ("Why is it " ++ a.name ++ "?") = some x := by
  obtain ⟨settings, resolved⟩ : ∃ settings, judge.resolve {} = .ok (fairness, settings) := ⟨_, rfl⟩
  have hmem : fairness.adjectives[1] ∈ fairness.adjectives := List.getElem_mem _
  obtain ⟨-, x, explained, answered⟩ := Explainer.answers_askable resolved fairness_wellNamed (fairness_askable hmem)
  exact ⟨_, hmem, rfl, x, explained, answered (by decide)⟩

/-- A name that holds the word that divides comparisons cannot be asked about, though the adjective is explained. -/
theorem judge_silent : ∃ a ∈ fairness.adjectives, ∃ settings, judge.resolve {} = .ok (fairness, settings) ∧
    fairness.WellNamed ∧ Question.Askable fairness heads a ∧ (∃ x, judge.explain heads a.name = .ok x) ∧
    judge.answer? heads ("Why is it " ++ a.name ++ "?") = none := by
  have hmem : fairness.adjectives[2] ∈ fairness.adjectives := List.getElem_mem _
  refine ⟨_, hmem, _, rfl, fairness_wellNamed, fairness_askable hmem, ⟨_, rfl⟩, ?_⟩
  have silent : (judge.answer? heads "Why is it more than fair?").isNone = true := by decide +kernel
  exact Option.isNone_iff_eq_none.mp silent

end Coin

end Rationale
