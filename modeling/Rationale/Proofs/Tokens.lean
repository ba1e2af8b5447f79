import Mathlib.Tactic.IntervalCases
import Rationale.Json.Document

/-!
What is written is cut into the tokens it was made of. A text comes back between its quotes, whatever characters it has; a
word ends at the first character that can be in none; and the blanks and line ends of the indented form are no tokens.
-/

namespace Rationale.Json

/-- A control character, or one that is written as it is or after a backslash. -/
theorem escapedChar_cases (c : Char) : c.toNat < 32 ∨ (c = '"' ∨ c = '\\') ∧ escapedChar c = ['\\', c] ∨
    32 ≤ c.toNat ∧ c ≠ '"' ∧ c ≠ '\\' ∧ escapedChar c = [c] := by
  by_cases control : c.toNat < 32
  · exact .inl control
  refine .inr ?_
  by_cases special : c = '"' ∨ c = '\\'
  · refine .inl ⟨special, ?_⟩
    rcases special with rfl | rfl <;> rfl
  · obtain ⟨quote, backslash⟩ := not_or.mp special
    have other (d : Char) (h : d.toNat < 32) : c ≠ d := fun same => control (same ▸ h)
    refine .inr ⟨Nat.not_lt.mp control, quote, backslash, ?_⟩
    rw [escapedChar, if_neg (by simp [quote, backslash]), if_neg (other '\n' (by decide)),
      if_neg (other '\r' (by decide)), if_neg (other '\t' (by decide)), if_neg (by omega), if_neg (by omega),
      if_neg (by omega), if_neg control]

theorem codes?_escapedChar (c : Char) (rest : List Char) :
    codes? (escapedChar c ++ rest) = (codes? rest).map (c.toNat :: ·) := by
  rcases escapedChar_cases c with control | ⟨special, escaped⟩ | ⟨visible, quote, backslash, escaped⟩
  · rw [← Char.ofNat_toNat c]
    generalize c.toNat = n at control
    interval_cases n <;> rfl
  · rcases special with rfl | rfl <;> rfl
  · rw [escaped, List.singleton_append, codes?]
    · rw [if_neg (Nat.not_lt.mpr visible)]
    · exact fun _ _ _ _ _ same _ => backslash same
    · exact fun _ _ same _ => backslash same
    · exact fun same _ => backslash same

theorem codes?_escaped (cs : List Char) : codes? (cs.flatMap escapedChar) = some (cs.map Char.toNat) := by
  induction cs with
  | nil => rfl
  | cons c rest ih => rw [List.flatMap_cons, codes?_escapedChar, ih, Option.map_some, List.map_cons]

/-- No character is half of a pair. -/
theorem not_surrogate (c : Char) : isLow c.toNat = false ∧ isHigh c.toNat = false := by
  have valid : c.toNat < 0xD800 ∨ 0xDFFF < c.toNat ∧ c.toNat < 0x110000 := c.valid
  constructor <;> simp only [isLow, isHigh, decide_eq_false_iff_not] <;> omega

theorem pairs?_toNat (cs : List Char) : pairs? (cs.map Char.toNat) = some cs := by
  induction cs with
  | nil => rfl
  | cons c rest ih =>
    obtain ⟨low, high⟩ := not_surrogate c
    rw [List.map_cons, pairs?.eq_def]
    simp only [low, high, Bool.false_eq_true, if_false, ih, Option.map_some, Char.ofNat_toNat]

theorem textToken?_escaped (s : String) : textToken? (s.toList.flatMap escapedChar) = some (.text (some s)) := by
  rw [textToken?, codes?_escaped, Option.map_some, pairs?_toNat, Option.map_some, String.ofList_toList]

/-- Characters that are read inside a text and leave it open. -/
def Inside (cs : List Char) : Prop :=
  ∀ read rest, tokens? (.text read false) (cs ++ rest) = tokens? (.text (cs.reverse ++ read) false) rest

theorem Inside.append {cs cs' : List Char} (h : Inside cs) (h' : Inside cs') : Inside (cs ++ cs') := by
  intro read rest
  rw [List.append_assoc, h, h', List.reverse_append, List.append_assoc]

theorem inside_escapedChar (c : Char) : Inside (escapedChar c) := by
  intro read rest
  rcases escapedChar_cases c with control | ⟨special, escaped⟩ | ⟨-, quote, backslash, escaped⟩
  · rw [← Char.ofNat_toNat c]
    generalize c.toNat = n at control
    interval_cases n <;> rfl
  · rw [escaped]
    rcases special with rfl | rfl <;> rfl
  · rw [escaped, List.singleton_append, tokens?, if_neg (by decide), if_neg quote, beq_eq_false_iff_ne.mpr backslash]
    rfl

theorem inside_escaped (cs : List Char) : Inside (cs.flatMap escapedChar) := by
  induction cs with
  | nil => exact fun _ _ => rfl
  | cons c rest ih => exact (inside_escapedChar c).append ih

theorem closeWord_nil (later : Option (List Token)) : closeWord [] later = later := rfl

theorem tokens?_textForm (s : String) (rest : List Char) : tokens? (.word []) ((textForm s).toList ++ rest)
    = (tokens? (.word []) rest).map (.text (some s) :: ·) := by
  rw [textForm, String.toList_ofList, List.append_assoc, List.cons_append, tokens?, if_pos rfl, closeWord_nil,
    inside_escaped, List.append_nil, List.singleton_append, tokens?, if_neg (by decide), if_pos rfl, List.reverse_reverse,
    textToken?_escaped]
  rfl

/-! ### Words -/

/-- A character that ends a word. -/
def isBreak (c : Char) : Bool := c = '"' || isJsonBlank c || (punctuation? c).isSome

/-- Whether a text begins with a character that ends a word, if with any. -/
def Breaks (cs : List Char) : Prop := ∀ c ∈ cs.head?, isBreak c = true

theorem tokens?_word {w : List Char} (plain : ∀ c ∈ w, isBreak c = false) (read rest : List Char) :
    tokens? (.word read) (w ++ rest) = tokens? (.word (w.reverse ++ read)) rest := by
  induction w generalizing read with
  | nil => rfl
  | cons c more ih =>
    obtain ⟨here, later⟩ := List.forall_mem_cons.mp plain
    simp only [isBreak, Bool.or_eq_false_iff, decide_eq_false_iff_not, Option.isSome_eq_false_iff,
      Option.isNone_iff_eq_none] at here
    rw [List.cons_append, tokens?, if_neg here.1.1, here.1.2, here.2]
    dsimp only
    rw [if_neg Bool.false_ne_true, ih later, List.reverse_cons, List.append_assoc, List.singleton_append]

theorem tokens?_breaks {rest : List Char} (breaks : Breaks rest) (read : List Char) :
    tokens? (.word read) rest = closeWord read (tokens? (.word []) rest) := by
  cases rest with
  | nil => rw [tokens?, tokens?, closeWord_nil]
  | cons c more =>
    have ends := breaks c rfl
    rw [tokens?, tokens?]
    simp only [closeWord_nil]
    split
    · rfl
    · split
      · rfl
      · cases hp : punctuation? c with
        | some p => rfl
        | none => simp_all [isBreak]

/-- A word with the token it is. -/
structure Word (w : List Char) (token : Token) : Prop where
  there : w ≠ []
  plain : w.any isBreak = false
  reads : wordToken? w = some token

theorem Word.tokens? {w : List Char} {token : Token} (h : Word w token) {rest : List Char} (breaks : Breaks rest) :
    tokens? (.word []) (w ++ rest) = (Json.tokens? (.word []) rest).map (token :: ·) := by
  have there : w.reverse.isEmpty = false := by simpa using h.there
  have plain : ∀ c ∈ w, isBreak c = false := fun c hc => Bool.eq_false_iff.mpr (List.any_eq_false.mp h.plain c hc)
  rw [tokens?_word plain, List.append_nil, tokens?_breaks breaks, closeWord, there, List.reverse_reverse, h.reads]
  rfl

theorem word_null : Word "null".toList .null := ⟨by decide, rfl, rfl⟩

theorem word_bool (b : Bool) : Word (if b then "true" else "false").toList (.bool b) := by
  cases b <;> exact ⟨by decide, rfl, rfl⟩

/-- Whether a word was read to a number. -/
def readTo (x : Number) : Option Token → Bool
  | some (.number (some (.float y))) => y = x
  | _ => false

theorem eq_of_readTo {x : Number} {token : Option Token} (h : readTo x token) :
    token = some (.number (some (.float x))) := by
  unfold readTo at h
  split at h
  · rw [of_decide_eq_true h]
  · cases h

/-- The evaluations of random trees. -/
theorem word_evaluation {i : Int} (low : -10 ≤ i) (high : i ≤ 10) :
    Word (Number.ofInt i).jsonText.toList (.number (some (.float (Number.ofInt i)))) := by
  have words : ∀ n : Fin 21, (Number.ofInt (n - 10)).jsonText.toList ≠ [] ∧
      (Number.ofInt (n - 10)).jsonText.toList.any isBreak = false ∧
      readTo (Number.ofInt (n - 10)) (wordToken? (Number.ofInt (n - 10)).jsonText.toList) := by decide +kernel
  obtain ⟨n, hn⟩ : ∃ n : Fin 21, (n : Int) - 10 = i := ⟨⟨(i + 10).toNat, by omega⟩, by dsimp only; omega⟩
  obtain ⟨there, plain, reads⟩ := words n
  rw [hn] at there plain reads
  exact ⟨there, plain, eq_of_readTo reads⟩

theorem tokens?_blanks {blanks : List Char} (h : ∀ c ∈ blanks, isJsonBlank c = true) (rest : List Char) :
    tokens? (.word []) (blanks ++ rest) = tokens? (.word []) rest := by
  induction blanks with
  | nil => rfl
  | cons c more ih =>
    obtain ⟨here, later⟩ := List.forall_mem_cons.mp h
    have quote : c ≠ '"' := by
      rintro rfl
      exact absurd here (by decide)
    rw [List.cons_append, tokens?, if_neg quote, if_pos here, closeWord_nil, ih later]

theorem tokens?_punctuation {c : Char} {token : Token} (h : punctuation? c = some token) (rest : List Char) :
    tokens? (.word []) (c :: rest) = (tokens? (.word []) rest).map (token :: ·) := by
  have quote : c ≠ '"' := by
    rintro rfl
    cases h
  have blank : isJsonBlank c = false := by
    refine Bool.eq_false_iff.mpr fun blank => ?_
    simp only [isJsonBlank, Bool.or_eq_true, decide_eq_true_eq] at blank
    rcases blank with ((rfl | rfl) | rfl) | rfl <;> cases h
  rw [tokens?, if_neg quote, blank, h]
  rfl

end Rationale.Json
