import Mathlib.Data.List.Infix
import Rationale.Explainer
import Rationale.Proofs.Filling
import Rationale.Proofs.Results

/-!
What questions ask. The ways in which a text asks about a node are given apart from how it is read, with the points at
which it is divided where several are possible. A question is understood exactly as what it asks.
-/

namespace Rationale

/-- What is kept of the largest so far and one more, which wins if they are equally large. -/
def keepLarger {α : Type} (size : α → Nat) (best : Option α) (x : α) : Option α :=
  match best with
  | none => some x
  | some b => if size b ≤ size x then some x else some b

section
variable {α : Type} {size : α → Nat}

theorem foldl_keepLarger_of_lt {x : α} {after : List α} (h : ∀ y ∈ after, size y < size x) :
    after.foldl (keepLarger size) (some x) = some x := by
  induction after with
  | nil => rfl
  | cons y rest ih =>
    obtain ⟨smaller, others⟩ := List.forall_mem_cons.mp h
    rw [List.foldl_cons, keepLarger, if_neg (Nat.not_le.mpr smaller), ih others]

theorem foldl_keepLarger_of_le {x : α} {before : List α} (h : ∀ y ∈ before, size y ≤ size x) {best : Option α}
    (hbest : ∀ b ∈ best, size b ≤ size x) : keepLarger size (before.foldl (keepLarger size) best) x = some x := by
  induction before generalizing best with
  | nil =>
    cases best with
    | none => rfl
    | some b => exact if_pos (hbest b rfl)
  | cons y rest ih =>
    obtain ⟨smaller, others⟩ := List.forall_mem_cons.mp h
    refine ih others fun b hb => ?_
    cases best with
    | none =>
      cases hb
      exact smaller
    | some c =>
      rw [keepLarger] at hb
      split at hb
      · cases hb
        exact smaller
      · cases hb
        exact hbest _ rfl

theorem foldl_keepLarger_eq_none {xs : List α} (h : xs.foldl (keepLarger size) none = none) : xs = [] := by
  rcases List.eq_nil_or_concat xs with rfl | ⟨ys, y, rfl⟩
  · rfl
  · rw [List.concat_eq_append, List.foldl_append, List.foldl_cons, List.foldl_nil] at h
    unfold keepLarger at h
    split at h
    · cases h
    · split at h <;> cases h

/-- The choice is the last of the largest elements. -/
theorem foldl_keepLarger_eq_some {xs : List α} {x : α} : xs.foldl (keepLarger size) none = some x ↔
    ∃ before after, xs = before ++ x :: after ∧ (∀ y ∈ before, size y ≤ size x) ∧ ∀ y ∈ after, size y < size x := by
  constructor
  · intro h
    -- The last element decides: it takes the place of an earlier choice that is not larger.
    induction xs using List.reverseRecOn generalizing x with
    | nil => cases h
    | append_singleton xs y ih =>
      rw [List.foldl_append, List.foldl_cons, List.foldl_nil] at h
      cases hb : xs.foldl (keepLarger size) none with
      | none =>
        rw [hb] at h
        cases h
        exact ⟨[], [], by rw [foldl_keepLarger_eq_none hb], nofun, nofun⟩
      | some b =>
        obtain ⟨before, after, rfl, small, smaller⟩ := ih hb
        rw [hb, keepLarger] at h
        split at h
        · rename_i le
          cases h
          refine ⟨_, [], rfl, fun z hz => ?_, nofun⟩
          rcases List.mem_append.mp hz with hz | hz
          · exact (small z hz).trans le
          · rcases List.mem_cons.mp hz with rfl | hz
            · exact le
            · exact (smaller z hz).le.trans le
        · rename_i lt
          cases h
          refine ⟨before, after ++ [y], by simp, small, fun z hz => ?_⟩
          rcases List.mem_append.mp hz with hz | hz
          · exact smaller z hz
          · obtain rfl := List.mem_singleton.mp hz
            exact Nat.not_le.mp lt
  · rintro ⟨before, after, rfl, small, smaller⟩
    have kept : keepLarger size (before.foldl (keepLarger size) none) x = some x :=
      foldl_keepLarger_of_le small nofun
    rw [List.foldl_append, List.foldl_cons, kept, foldl_keepLarger_of_lt smaller]

end

/-- Of two ends of one text the one with more bytes has more characters. -/
theorem utf8ByteSize_le_iff_of_suffix {s t text : List Char} (hs : s <:+ text) (ht : t <:+ text) :
    (String.ofList s).utf8ByteSize ≤ (String.ofList t).utf8ByteSize ↔ s.length ≤ t.length := by
  have size (p q : List Char) :
      (String.ofList (p ++ q)).utf8ByteSize = (String.ofList p).utf8ByteSize + (String.ofList q).utf8ByteSize := by
    rw [String.ofList_append, String.utf8ByteSize_append]
  have empty (p : List Char) : (String.ofList p).utf8ByteSize = 0 ↔ p.length = 0 := by
    rw [String.utf8ByteSize_eq_zero_iff, List.length_eq_zero_iff, String.ofList_eq_empty_iff]
  rcases List.suffix_or_suffix_of_suffix hs ht with ⟨p, rfl⟩ | ⟨p, rfl⟩
  · rw [size, List.length_append]
    omega
  · rw [size, List.length_append]
    have := empty p
    omega

namespace Question

/-- The separator stands between two texts, and nowhere further on. -/
structure LastSplit (separator text before after : List Char) : Prop where
  text_eq : text = before ++ separator ++ after
  last : ∀ before' after', text = before' ++ separator ++ after' → before'.length ≤ before.length

section
variable {separator text before after : List Char}

theorem LastSplit.unique (h : LastSplit separator text before after) {before' after' : List Char}
    (h' : LastSplit separator text before' after') : before = before' ∧ after = after' := by
  have same := Nat.le_antisymm (h'.last _ _ h.text_eq) (h.last _ _ h'.text_eq)
  have texts := h.text_eq.symm.trans h'.text_eq
  rw [List.append_assoc, List.append_assoc] at texts
  obtain ⟨rfl, rest⟩ := List.append_inj texts same
  exact ⟨rfl, List.append_cancel_left rest⟩

theorem not_infix_of_splitLast? (nonempty : separator ≠ []) (h : splitLast? separator text = none) :
    ¬separator <:+: text := by
  induction text with
  | nil =>
    intro within
    exact nonempty (List.infix_nil.mp within)
  | cons c rest ih =>
    rw [splitLast?] at h
    split at h
    · cases h
    · rename_i later
      rw [List.infix_cons_iff, not_or]
      refine ⟨fun ⟨after, here⟩ => ?_, ih later⟩
      rw [Option.map_eq_none_iff] at h
      rw [List.isPrefixOf?_eq_some_iff_append_eq.mpr here] at h
      cases h

theorem LastSplit.of_splitLast? (nonempty : separator ≠ [])
    (h : splitLast? separator text = some (before, after)) : LastSplit separator text before after := by
  induction text generalizing before with
  | nil => cases h
  | cons c rest ih =>
    rw [splitLast?] at h
    split at h
    · rename_i before _ later
      cases h
      obtain ⟨rfl, last⟩ := ih later
      refine ⟨rfl, fun before' after' same => ?_⟩
      cases before' with
      | nil => exact Nat.zero_le _
      | cons d before' => exact Nat.succ_le_succ (last before' after' (List.cons.inj same).2)
    · rename_i none
      obtain ⟨_, here, split⟩ := Option.map_eq_some_iff.mp h
      cases split
      refine ⟨(List.isPrefixOf?_eq_some_iff_append_eq.mp here).symm, fun before' after' same => ?_⟩
      cases before' with
      | nil => exact Nat.le_refl _
      | cons d before' =>
        exact absurd ⟨before', after', (List.cons.inj same).2.symm⟩ (not_infix_of_splitLast? nonempty none)

theorem splitLast?_eq_some (nonempty : separator ≠ []) :
    splitLast? separator text = some (before, after) ↔ LastSplit separator text before after := by
  refine ⟨.of_splitLast? nonempty, fun h => ?_⟩
  cases found : splitLast? separator text with
  | none => exact absurd ⟨before, after, h.text_eq.symm⟩ (not_infix_of_splitLast? nonempty found)
  | some split =>
    obtain ⟨rfl, rfl⟩ := h.unique (.of_splitLast? nonempty found)
    rfl

theorem splitLast?_eq_none (nonempty : separator ≠ []) : splitLast? separator text = none ↔ ¬separator <:+: text := by
  refine ⟨not_infix_of_splitLast? nonempty, fun absent => ?_⟩
  cases found : splitLast? separator text with
  | none => rfl
  | some split =>
    have text_eq := (LastSplit.of_splitLast? nonempty found).text_eq
    exact absurd ⟨_, _, text_eq.symm⟩ absent

end

variable {N : Type}

/-! ### Names at the end of a text -/

/-- The adjective may stand at the end of the text, and its name does so after a space. -/
structure Ends (accepts : Adjective N → Bool) (text : List Char) (a : Adjective N) : Prop where
  isPublic : a.isPublic = true
  accepted : accepts a = true
  ends : ' ' :: lowerName a.name <:+ text

/-- The adjective has the longest name of those that may stand at the end of the text, and is the last of those with
this name. -/
structure Longest (F : Framework N) (accepts : Adjective N → Bool) (text : List Char) (a : Adjective N) : Prop
    extends Ends accepts text a where
  longest : ∀ b ∈ F.adjectives, Ends accepts text b → (lowerName b.name).length ≤ (lowerName a.name).length
  last : ∃ before after, F.adjectives = before ++ a :: after ∧
    ∀ b ∈ after, Ends accepts text b → lowerName b.name ≠ lowerName a.name

section
variable {F : Framework N} {accepts : Adjective N → Bool} {text head : List Char} {a b : Adjective N}

theorem nameSize_le_iff (ha : ' ' :: lowerName a.name <:+ text) (hb : ' ' :: lowerName b.name <:+ text) :
    nameSize a ≤ nameSize b ↔ (lowerName a.name).length ≤ (lowerName b.name).length :=
  utf8ByteSize_le_iff_of_suffix ((List.suffix_cons _ _).trans ha) ((List.suffix_cons _ _).trans hb)

theorem beforeName?_eq_some : beforeName? text a = some head ↔ text = head ++ ' ' :: lowerName a.name := by
  simp only [beforeName?, bind, Option.bind_eq_some_iff, List.isSuffixOf?_eq_some_iff_append_eq]
  constructor
  · rintro ⟨_, rfl, rfl⟩
    simp
  · rintro rfl
    exact ⟨head ++ [' '], by simp, rfl⟩

/-- The adjective as a candidate for the end of the text, with what stands before its name. -/
def candidate? (accepts : Adjective N → Bool) (text : List Char) (a : Adjective N) : Option (List Char × Adjective N) :=
  if a.isPublic && accepts a then (beforeName? text a).map fun head => (head, a) else none

theorem candidate?_eq_some : candidate? accepts text a = some (head, b) ↔
    a = b ∧ text = head ++ ' ' :: lowerName b.name ∧ Ends accepts text b := by
  unfold candidate?
  split
  · rename_i accepted
    obtain ⟨isPublic, accepted⟩ := Bool.and_eq_true_iff.mp accepted
    simp only [Option.map_eq_some_iff, beforeName?_eq_some, Prod.mk.injEq]
    constructor
    · rintro ⟨_, text_eq, rfl, rfl⟩
      exact ⟨rfl, text_eq, isPublic, accepted, _, text_eq.symm⟩
    · rintro ⟨rfl, text_eq, -⟩
      exact ⟨_, text_eq, rfl, rfl⟩
  · rename_i refused
    refine iff_of_false nofun ?_
    rintro ⟨rfl, -, ends⟩
    exact refused (Bool.and_eq_true_iff.mpr ⟨ends.isPublic, ends.accepted⟩)

theorem Ends.candidate (h : Ends accepts text a) : ∃ head, candidate? accepts text a = some (head, a) := by
  obtain ⟨head, text_eq⟩ := h.ends
  exact ⟨head, candidate?_eq_some.mpr ⟨rfl, text_eq.symm, h⟩⟩

/-- How much text the name of a candidate takes. -/
def candidateSize (c : List Char × Adjective N) : Nat := nameSize c.2

theorem splitAdjective?_eq (accepts : Adjective N → Bool) (text : List Char) : splitAdjective? F accepts text =
    (F.adjectives.filterMap (candidate? accepts text)).foldl (keepLarger candidateSize) none := by
  simp only [splitAdjective?, candidate?]
  congr 1
  funext best c
  cases best <;> rfl

theorem splitAdjective?_eq_some : splitAdjective? F accepts text = some (head, a) ↔
    text = head ++ ' ' :: lowerName a.name ∧ Longest F accepts text a := by
  rw [splitAdjective?_eq, foldl_keepLarger_eq_some]
  constructor
  · rintro ⟨before, after, candidates, small, smaller⟩
    obtain ⟨first, rest, split, rfl, others⟩ := List.filterMap_eq_append_iff.mp candidates
    obtain ⟨skipped, b, later, rfl, -, here, rfl⟩ := List.filterMap_eq_cons_iff.mp others
    obtain ⟨rfl, text_eq, ends⟩ := candidate?_eq_some.mp here
    refine ⟨text_eq, ends, fun c hc hends => ?_, first ++ skipped, later, by rw [split, List.append_assoc], ?_⟩
    · obtain ⟨head', hcandidate⟩ := hends.candidate
      have hmem := List.mem_filterMap.mpr ⟨c, hc, hcandidate⟩
      rw [candidates] at hmem
      refine (nameSize_le_iff hends.ends ends.ends).mp ?_
      rcases List.mem_append.mp hmem with hmem | hmem
      · simpa only [candidateSize] using small _ hmem
      · rcases List.mem_cons.mp hmem with same | hmem
        · rw [(Prod.mk.inj same).2]
        · exact (smaller _ hmem).le
    · intro c hc hends same
      obtain ⟨head', hcandidate⟩ := hends.candidate
      have lt := smaller _ (List.mem_filterMap.mpr ⟨c, hc, hcandidate⟩)
      exact absurd ((nameSize_le_iff ends.ends hends.ends).mpr (by rw [same])) (Nat.not_le.mpr lt)
  · rintro ⟨text_eq, ends, longest, before, after, split, last⟩
    have here : candidate? accepts text a = some (head, a) := candidate?_eq_some.mpr ⟨rfl, text_eq, ends⟩
    refine ⟨before.filterMap (candidate? accepts text), after.filterMap (candidate? accepts text), ?_, ?_, ?_⟩
    · rw [split, List.filterMap_append, List.filterMap_cons, here]
    · rintro ⟨head', b⟩ hb
      obtain ⟨c, hc, hcandidate⟩ := List.mem_filterMap.mp hb
      obtain ⟨rfl, -, hends⟩ := candidate?_eq_some.mp hcandidate
      have hmem : c ∈ F.adjectives := split ▸ List.mem_append_left _ hc
      exact (nameSize_le_iff hends.ends ends.ends).mpr (longest c hmem hends)
    · rintro ⟨head', b⟩ hb
      obtain ⟨c, hc, hcandidate⟩ := List.mem_filterMap.mp hb
      obtain ⟨rfl, -, hends⟩ := candidate?_eq_some.mp hcandidate
      have hmem : c ∈ F.adjectives := split ▸ List.mem_append_right _ (List.mem_cons_of_mem _ hc)
      refine Nat.lt_of_not_le fun le => last c hc hends ?_
      have same := Nat.le_antisymm (longest c hmem hends) ((nameSize_le_iff ends.ends hends.ends).mp le)
      -- Two names of one length at the end of one text are the same.
      have suffixes := List.suffix_of_suffix_length_le ((List.suffix_cons _ _).trans hends.ends)
        ((List.suffix_cons _ _).trans ends.ends) same.le
      exact suffixes.eq_of_length same

end

variable [Node N] {F : Framework N} {node : N}

/-- The phrases for the node that is asked about. -/
inductive Subject (F : Framework N) (node : N) : List Char → Prop
  | label : Subject F node (lowerName (Node.label node))
  | it : Subject F node "it".toList
  | this : Subject F node ("this ".toList ++ lowerName F.nodeWord)
  | the : Subject F node ("the ".toList ++ lowerName F.nodeWord)

theorem isSubject_iff {text : List Char} : isSubject F node text = true ↔ Subject F node text := by
  simp only [isSubject, List.contains_iff_mem, List.mem_cons, List.not_mem_nil, or_false]
  constructor
  · rintro (rfl | rfl | rfl | rfl)
    · exact .label
    · exact .it
    · exact .this
    · exact .the
  · rintro (_ | _ | _ | _) <;> simp

theorem about_eq_some {subject : List Char} {a : Adjective N} {q : Question N} :
    about F node subject a = some q ↔ Subject F node subject ∧ q = ⟨a.name, none⟩ := by
  unfold about
  split
  · rename_i phrase
    simp [← isSubject_iff, phrase, eq_comm]
  · rename_i phrase
    simp [← isSubject_iff, phrase]

/-- The first pointer with the name in lower case leads from the node to the other. -/
structure Points (F : Framework N) (node : N) (name : List Char) (other : N) (p : Adjective N) : Prop where
  isPointer : p.kind = .pointer
  named : lowerName p.name = name
  first : ∃ before after, F.adjectives = before ++ p :: after ∧
    ∀ b ∈ before, b.kind = .pointer → lowerName b.name ≠ name
  leads : F.evaluate p.name node = .ok (.node other)

omit [Node N] in
theorem find?_pointer {name : List Char} {p : Adjective N} :
    (F.adjectives.find? fun a => a.kind == .pointer && lowerName a.name == name) = some p ↔
      p.kind = .pointer ∧ lowerName p.name = name ∧ ∃ before after, F.adjectives = before ++ p :: after ∧
        ∀ b ∈ before, b.kind = .pointer → lowerName b.name ≠ name := by
  simp [List.find?_eq_some_iff_append, and_assoc, imp_iff_not_or]

/-! ### Questions -/

/-- A text asks about a node in one of the documented ways. Where it can be divided in several, the last `than`, the
longest name and a `not` before the name count. -/
inductive Asks (F : Framework N) (node : N) : List Char → Question N → Prop
  | main {text : List Char} {name : String} {a : Adjective N} (phrase : Subject F node text)
      (main : F.main = some name) (defined : F.adjective? name = some a) :
      Asks F node ("why is ".toList ++ text) ⟨a.name, none⟩
  | possession {text subject : List Char} {a : Adjective N} (phrase : Subject F node subject)
      (words : text = subject ++ " have ".toList ++ lowerName a.name) (longest : Longest F (fun _ => true) text a) :
      Asks F node ("why does ".toList ++ text) ⟨a.name, none⟩
  | state {text subject : List Char} {a : Adjective N} (phrase : Subject F node subject)
      (words : text = subject ++ " ".toList ++ lowerName a.name) (longest : Longest F (!·.isComparison) text a)
      (affirmed : ¬" not".toList <:+ subject) (plain : ¬" than ".toList <:+: text) (more : ¬Subject F node text) :
      Asks F node ("why is ".toList ++ text) ⟨a.name, none⟩
  | denial {text subject : List Char} {a : Adjective N} (phrase : Subject F node subject)
      (words : text = subject ++ " not ".toList ++ lowerName a.name) (longest : Longest F (!·.isComparison) text a)
      (plain : ¬" than ".toList <:+: text) (more : ¬Subject F node text) :
      Asks F node ("why is ".toList ++ text) ⟨a.name, none⟩
  | comparison {text head target subject : List Char} {a p : Adjective N} {other : N} (phrase : Subject F node subject)
      (than : LastSplit " than ".toList text head target) (words : head = subject ++ " ".toList ++ lowerName a.name)
      (longest : Longest F (·.isComparison) head a)
      (pointed : target = "its ".toList ++ lowerName p.name ∨ target = "the ".toList ++ lowerName p.name)
      (points : Points F node (lowerName p.name) other p) (more : ¬Subject F node text) :
      Asks F node ("why is ".toList ++ text) ⟨a.name, some other⟩

theorem parsePossession?_eq_some {text : List Char} {q : Question N} : parsePossession? F node text = some q ↔
    ∃ subject a, Subject F node subject ∧ text = subject ++ " have ".toList ++ lowerName a.name ∧
      Longest F (fun _ => true) text a ∧ q = ⟨a.name, none⟩ := by
  simp only [parsePossession?, bind, Option.bind_eq_some_iff, Prod.exists, splitAdjective?_eq_some,
    List.isSuffixOf?_eq_some_iff_append_eq, about_eq_some]
  constructor
  · rintro ⟨_, a, ⟨rfl, longest⟩, subject, rfl, phrase, rfl⟩
    exact ⟨subject, a, phrase, by simp, longest, rfl⟩
  · rintro ⟨subject, a, phrase, rfl, longest, rfl⟩
    exact ⟨_, a, ⟨by simp, longest⟩, subject, rfl, phrase, rfl⟩

/-- What stands after the article of a text. -/
theorem article_eq_some {target name : List Char} :
    ("its ".toList.isPrefixOf? target).or ("the ".toList.isPrefixOf? target) = some name ↔
      target = "its ".toList ++ name ∨ target = "the ".toList ++ name := by
  rw [Option.or_eq_some_iff, List.isPrefixOf?_eq_some_iff_append_eq, List.isPrefixOf?_eq_some_iff_append_eq]
  constructor
  · rintro (h | ⟨-, h⟩)
    · exact .inl h.symm
    · exact .inr h.symm
  · rintro (rfl | rfl)
    · exact .inl rfl
    · exact .inr ⟨rfl, rfl⟩

omit [Node N] in
/-- The node that a pointer leads to, as what is asked about. -/
theorem pointed_eq_some {name : String} {value : Except EvaluationError (Value N)} {q : Question N} :
    (match value with
      | .ok (.node other) => some (⟨name, some other⟩ : Question N)
      | _ => none) = some q ↔ ∃ other, value = .ok (.node other) ∧ q = ⟨name, some other⟩ := by
  split
  · simp [eq_comm]
  · rename_i none
    refine iff_of_false nofun ?_
    rintro ⟨other, leads, -⟩
    exact none other leads

theorem parseComparison?_eq_some {head target : List Char} {q : Question N} :
    parseComparison? F node head target = some q ↔
      ∃ subject a p other, Subject F node subject ∧ head = subject ++ " ".toList ++ lowerName a.name ∧
        Longest F (·.isComparison) head a ∧
        (target = "its ".toList ++ lowerName p.name ∨ target = "the ".toList ++ lowerName p.name) ∧
        Points F node (lowerName p.name) other p ∧ q = ⟨a.name, some other⟩ := by
  simp only [parseComparison?, bind, Option.bind_eq_some_iff, Prod.exists, splitAdjective?_eq_some]
  constructor
  · rintro ⟨subject, a, ⟨rfl, longest⟩, h⟩
    split at h
    · cases h
    · rename_i phrase
      simp only [Option.bind_eq_some_iff, article_eq_some, find?_pointer] at h
      obtain ⟨_, pointed, p, ⟨isPointer, rfl, first⟩, h⟩ := h
      obtain ⟨other, leads, rfl⟩ := pointed_eq_some.mp h
      rw [Bool.not_eq_true, Bool.not_eq_false', isSubject_iff] at phrase
      exact ⟨subject, a, p, other, phrase, by simp, longest, pointed, ⟨isPointer, rfl, first, leads⟩, rfl⟩
  · rintro ⟨subject, a, p, other, phrase, rfl, longest, pointed, points, rfl⟩
    refine ⟨subject, a, ⟨by simp, longest⟩, ?_⟩
    rw [isSubject_iff.mpr phrase]
    simp only [Bool.not_true, Bool.false_eq_true, if_false, Option.bind_eq_some_iff, article_eq_some, find?_pointer]
    refine ⟨_, pointed, p, ⟨points.isPointer, points.named, points.first⟩, ?_⟩
    exact pointed_eq_some.mpr ⟨other, points.leads, rfl⟩

/-- A `not` at the end of a text is taken off, whether or not the text with it names the node. -/
theorem subject_getD_iff {head : List Char} : Subject F node ((" not".toList.isSuffixOf? head).getD head) ↔
    (Subject F node head ∧ ¬" not".toList <:+ head) ∨
      ∃ subject, Subject F node subject ∧ head = subject ++ " not".toList := by
  cases stripped : " not".toList.isSuffixOf? head with
  | some subject =>
    obtain rfl := List.isSuffixOf?_eq_some_iff_append_eq.mp stripped
    rw [Option.getD_some]
    constructor
    · exact fun phrase => .inr ⟨subject, phrase, rfl⟩
    · rintro (⟨-, affirmed⟩ | ⟨subject', phrase, same⟩)
      · exact absurd (List.suffix_append _ _) affirmed
      · rwa [List.append_cancel_right same]
  | none =>
    have affirmed : ¬" not".toList <:+ head := fun ⟨subject, h⟩ => by
      rw [List.isSuffixOf?_eq_some_iff_append_eq.mpr h] at stripped
      cases stripped
    rw [Option.getD_none]
    constructor
    · exact fun phrase => .inl ⟨phrase, affirmed⟩
    · rintro (⟨phrase, -⟩ | ⟨subject, -, rfl⟩)
      · exact phrase
      · exact absurd (List.suffix_append _ _) affirmed

/-- A name of an adjective that is no comparison, after a phrase for the node, with or without `not`. -/
theorem parsePlain_eq_some {text : List Char} {q : Question N} :
    ((splitAdjective? F (!·.isComparison) text).bind fun split =>
      about F node ((" not".toList.isSuffixOf? split.1).getD split.1) split.2) = some q ↔
    ∃ subject a, Subject F node subject ∧ Longest F (!·.isComparison) text a ∧ q = ⟨a.name, none⟩ ∧
      (text = subject ++ " ".toList ++ lowerName a.name ∧ ¬" not".toList <:+ subject ∨
        text = subject ++ " not ".toList ++ lowerName a.name) := by
  simp only [Option.bind_eq_some_iff, Prod.exists, splitAdjective?_eq_some, about_eq_some, subject_getD_iff]
  constructor
  · rintro ⟨head, a, ⟨rfl, longest⟩, ⟨phrase, affirmed⟩ | ⟨subject, phrase, rfl⟩, rfl⟩
    · exact ⟨head, a, phrase, longest, rfl, .inl ⟨by simp, affirmed⟩⟩
    · exact ⟨subject, a, phrase, longest, rfl, .inr (by simp)⟩
  · rintro ⟨subject, a, phrase, longest, rfl, ⟨rfl, affirmed⟩ | rfl⟩
    · exact ⟨subject, a, ⟨by simp, longest⟩, .inl ⟨phrase, affirmed⟩, rfl⟩
    · exact ⟨subject ++ " not".toList, a, ⟨by simp, longest⟩, .inr ⟨subject, phrase, rfl⟩, rfl⟩

theorem asks_of_parseState? {text : List Char} {q : Question N} (h : parseState? F node text = some q) :
    Asks F node ("why is ".toList ++ text) q := by
  unfold parseState? at h
  split at h
  · rename_i phrase
    simp only [bind, Option.bind_eq_some_iff] at h
    obtain ⟨name, main, a, defined, h⟩ := h
    cases h
    exact .main (isSubject_iff.mp phrase) main defined
  · rename_i more
    rw [isSubject_iff] at more
    split at h
    · rename_i head target than
      obtain ⟨subject, a, p, other, phrase, words, longest, pointed, points, rfl⟩ := parseComparison?_eq_some.mp h
      exact .comparison phrase ((splitLast?_eq_some (by decide)).mp than) words longest pointed points more
    · rename_i plain
      have plain := (splitLast?_eq_none (by decide)).mp plain
      obtain ⟨subject, a, phrase, longest, rfl, ⟨words, affirmed⟩ | words⟩ := parsePlain_eq_some.mp h
      · exact .state phrase words longest affirmed plain more
      · exact .denial phrase words longest plain more

theorem Asks.stated {text : List Char} {q : Question N} (h : Asks F node ("why is ".toList ++ text) q) :
    parseState? F node text = some q := by
  generalize whole : "why is ".toList ++ text = cs at h
  cases h with
  | main phrase main defined =>
    obtain rfl := List.append_cancel_left whole
    simp [parseState?, isSubject_iff.mpr phrase, main, defined]
  | possession phrase words longest => simp at whole
  | state phrase words longest affirmed plain more =>
    obtain rfl := List.append_cancel_left whole
    rw [parseState?, if_neg (mt isSubject_iff.mp more), (splitLast?_eq_none (by decide)).mpr plain]
    exact parsePlain_eq_some.mpr ⟨_, _, phrase, longest, rfl, .inl ⟨words, affirmed⟩⟩
  | denial phrase words longest plain more =>
    obtain rfl := List.append_cancel_left whole
    rw [parseState?, if_neg (mt isSubject_iff.mp more), (splitLast?_eq_none (by decide)).mpr plain]
    exact parsePlain_eq_some.mpr ⟨_, _, phrase, longest, rfl, .inr words⟩
  | comparison phrase than words longest pointed points more =>
    obtain rfl := List.append_cancel_left whole
    rw [parseState?, if_neg (mt isSubject_iff.mp more), (splitLast?_eq_some (by decide)).mpr than]
    exact parseComparison?_eq_some.mpr ⟨_, _, _, _, phrase, words, longest, pointed, points, rfl⟩

theorem Asks.possessed {text : List Char} {q : Question N} (h : Asks F node ("why does ".toList ++ text) q) :
    parsePossession? F node text = some q := by
  generalize whole : "why does ".toList ++ text = cs at h
  cases h with
  | possession phrase words longest =>
    obtain rfl := List.append_cancel_left whole
    exact parsePossession?_eq_some.mpr ⟨_, _, phrase, words, longest, rfl⟩
  | _ => simp at whole

theorem Asks.opening {text : List Char} {q : Question N} (h : Asks F node text q) :
    "why does ".toList <+: text ∨ "why is ".toList <+: text := by
  cases h with
  | possession => exact .inl (List.prefix_append _ _)
  | _ => exact .inr (List.prefix_append _ _)

/-- A question is understood as what it asks, and is not understood if it asks nothing. -/
theorem parse?_eq_some {question : String} {q : Question N} :
    parse? F node question = some q ↔ Asks F node (plain question) q := by
  unfold parse?
  generalize plain question = text
  constructor
  · intro h
    dsimp only at h
    split at h
    · rename_i rest opening
      obtain rfl := List.isPrefixOf?_eq_some_iff_append_eq.mp opening
      obtain ⟨subject, a, phrase, words, longest, rfl⟩ := parsePossession?_eq_some.mp h
      exact .possession phrase words longest
    · obtain ⟨rest, opening, h⟩ := Option.bind_eq_some_iff.mp h
      obtain rfl := List.isPrefixOf?_eq_some_iff_append_eq.mp opening
      exact asks_of_parseState? h
  · intro h
    rcases h.opening with ⟨rest, rfl⟩ | ⟨rest, rfl⟩
    · simp only [List.isPrefixOf?_eq_some_iff_append_eq.mpr rfl]
      exact h.possessed
    · have other : "why does ".toList.isPrefixOf? ("why is ".toList ++ rest) = none := rfl
      simp only [other, bind, Option.bind_eq_some_iff]
      exact ⟨rest, List.isPrefixOf?_eq_some_iff_append_eq.mpr rfl, h.stated⟩

/-- No text asks two things. -/
theorem Asks.unique {question : String} {q q' : Question N} (h : Asks F node (plain question) q)
    (h' : Asks F node (plain question) q') : q = q' :=
  Option.some.inj ((parse?_eq_some.mpr h).symm.trans (parse?_eq_some.mpr h'))

end Question

/-- An explainer answers what a question asks, with the explanation of what is asked and only if there is one. -/
theorem Explainer.answer?_eq_some {N : Type} [Node N] {E : Explainer N} {node : N} {question : String} {x : Argument} :
    E.answer? node question = some x ↔ ∃ F settings q, E.resolve {} = .ok (F, settings) ∧
      Question.Asks F node (Question.plain question) q ∧ E.explain node q.adjective q.other = .ok x := by
  simp only [answer?, bind, Option.bind_eq_some_iff, toOption_eq_some, Prod.exists, Question.parse?_eq_some]
  constructor
  · rintro ⟨F, settings, resolved, q, asks, answered⟩
    exact ⟨F, settings, q, resolved, asks, answered⟩
  · rintro ⟨F, settings, q, resolved, asks, answered⟩
    exact ⟨F, settings, resolved, q, asks, answered⟩

/-- Only what is asked in one of the documented ways is understood, as it is asked, and it is answered with its
explanation. -/
theorem Explainer.answers_asked {N : Type} [Node N] (E : Explainer N) (node : N) (question : String) :
    (∀ F q, Question.parse? F node question = some q ↔ Question.Asks F node (Question.plain question) q) ∧
    ∀ x, E.answer? node question = some x ↔ ∃ F settings q, E.resolve {} = .ok (F, settings) ∧
      Question.Asks F node (Question.plain question) q ∧ E.explain node q.adjective q.other = .ok x :=
  ⟨fun _ _ => Question.parse?_eq_some, fun _ => Explainer.answer?_eq_some⟩

end Rationale
