import Mathlib.Data.List.Basic

/-!
Formulas in text. A text is read by the usual rules: `¬` binds more closely than `∧`, and `∧` more closely than `∨`, and
parentheses hold together what they enclose. What holds no sign of a formula is a statement, and so is an assumption,
with the word in parentheses that marks it. No text has two readings: where a connective stands outside parentheses, the
texts on both sides are determined.
-/

namespace Rationale

/-- A formula over statements. -/
inductive Formula
  | statement (text : String)
  | not (φ : Formula)
  | and (φ ψ : Formula)
  | or (φ ψ : Formula)

namespace Formula

/-- Whether a formula holds where some statements do. -/
def Holds (holds : String → Prop) : Formula → Prop
  | .statement text => holds text
  | .not φ => ¬φ.Holds holds
  | .and φ ψ => φ.Holds holds ∧ ψ.Holds holds
  | .or φ ψ => φ.Holds holds ∨ ψ.Holds holds

def isSign (c : Char) : Bool := c == '(' || c == ')' || c == '∧' || c == '∨' || c == '¬'

/-- The text holds no sign of a formula. -/
def Bare (s : String) : Prop := ∀ c ∈ s.toList, isSign c = false

instance (s : String) : Decidable (Bare s) := List.decidableBAll (isSign · = false) s.toList

/-- What a text is read as: what `¬` can stand before, what can stand beside `∧`, and any formula. -/
inductive Binding
  | operand
  | conjunction
  | disjunction

/-- The text is read as the formula. -/
inductive Reads : Binding → String → Formula → Prop
  | statement {s : String} (bare : Bare s) : Reads .operand s (.statement s)
  | assumption {s : String} (bare : Bare s) : Reads .operand ("(assumption) " ++ s) (.statement ("(assumption) " ++ s))
  | enclosed {s : String} {φ : Formula} (inner : Reads .disjunction s φ) : Reads .operand ("(" ++ s ++ ")") φ
  | not {s : String} {φ : Formula} (operand : Reads .operand s φ) : Reads .operand ("¬" ++ s) (.not φ)
  | operand {s : String} {φ : Formula} (whole : Reads .operand s φ) : Reads .conjunction s φ
  | and {s t : String} {φ ψ : Formula} (left : Reads .operand s φ) (right : Reads .conjunction t ψ) :
      Reads .conjunction (s ++ " ∧ " ++ t) (.and φ ψ)
  | conjunction {s : String} {φ : Formula} (whole : Reads .conjunction s φ) : Reads .disjunction s φ
  | or {s t : String} {φ ψ : Formula} (left : Reads .conjunction s φ) (right : Reads .disjunction t ψ) :
      Reads .disjunction (s ++ " ∨ " ++ t) (.or φ ψ)

namespace Reads
variable {s t : String} {φ ψ : Formula}

/-- A conjunction may stand before `∧` as well, without parentheses. -/
theorem join (h : Reads .conjunction s φ) (h' : Reads .conjunction t ψ) : ∃ χ, Reads .conjunction (s ++ " ∧ " ++ t) χ ∧
    ∀ holds, χ.Holds holds ↔ φ.Holds holds ∧ ψ.Holds holds := by
  generalize level : Binding.conjunction = b at h
  induction h with
  | operand whole => exact ⟨_, .and whole h', fun _ => Iff.rfl⟩
  | @and s u φ φ' left _ _ ih =>
    obtain ⟨χ, read, joined⟩ := ih rfl
    refine ⟨.and φ χ, ?_, fun holds => ?_⟩
    · have text : s ++ " ∧ " ++ u ++ " ∧ " ++ t = s ++ " ∧ " ++ (u ++ " ∧ " ++ t) := by simp only [String.append_assoc]
      rw [text]
      exact .and left read
    · rw [Holds, joined, Holds, and_assoc]
  | _ => cases level

/-- Texts that are read as conjunctions, one after the other. -/
theorem joinAll {α : Type} {text : α → String} {means : (String → Prop) → α → Prop} {items : List α}
    (nonempty : items ≠ [])
    (each : ∀ a ∈ items, ∃ φ, Reads .conjunction (text a) φ ∧ ∀ holds, φ.Holds holds ↔ means holds a) :
    ∃ φ, Reads .conjunction (" ∧ ".intercalate (items.map text)) φ ∧
      ∀ holds, φ.Holds holds ↔ ∀ a ∈ items, means holds a := by
  induction items with
  | nil => exact absurd rfl nonempty
  | cons a rest ih =>
    obtain ⟨⟨φ, read, same⟩, others⟩ := List.forall_mem_cons.mp each
    cases rest with
    | nil =>
      rw [List.map_singleton, String.intercalate_singleton]
      exact ⟨φ, read, fun holds => by rw [same, List.forall_mem_singleton]⟩
    | cons b rest =>
      obtain ⟨ψ, read', same'⟩ := ih (List.cons_ne_nil _ _) others
      obtain ⟨χ, joined, both⟩ := read.join read'
      rw [List.map_cons, List.map_cons, String.intercalate_cons_cons]
      exact ⟨χ, joined, fun holds => by rw [both, same, same', List.forall_mem_cons (a := a)]⟩

end Reads

@[simp] theorem bare_append {s t : String} : Bare (s ++ t) ↔ Bare s ∧ Bare t := by
  simp only [Bare, String.toList_append, List.forall_mem_append]

theorem Bare.not_mem {s : String} (h : Bare s) {c : Char} (sign : isSign c = true) : c ∉ s.toList := fun hc => by
  rw [h c hc] at sign
  cases sign

/-! ### Outside parentheses -/

/-- The characters of a text that stand outside all parentheses, if so many are open before it. -/
def outside : Nat → List Char → List Char
  | _, [] => []
  | depth, c :: rest =>
    if c = '(' then outside (depth + 1) rest
    else if c = ')' then outside (depth - 1) rest
    else if depth = 0 then c :: outside 0 rest
    else outside depth rest

/-- After the text as many parentheses are open as before it, and it closes none that were. -/
structure Balanced (cs : List Char) : Prop where
  deep : ∀ depth rest, outside (depth + 1) (cs ++ rest) = outside (depth + 1) rest
  top : ∀ rest, outside 0 (cs ++ rest) = outside 0 cs ++ outside 0 rest

namespace Balanced

theorem char {c : Char} (left : c ≠ '(') (right : c ≠ ')') : Balanced [c] where
  deep depth rest := by simp [outside, left, right]
  top rest := by simp [outside, left, right]

theorem append {cs ds : List Char} (h : Balanced cs) (h' : Balanced ds) : Balanced (cs ++ ds) where
  deep depth rest := by rw [List.append_assoc, h.deep, h'.deep]
  top rest := by rw [List.append_assoc, h.top, h'.top, h.top, List.append_assoc]

theorem enclosed {cs : List Char} (h : Balanced cs) : Balanced ('(' :: (cs ++ [')'])) where
  deep depth rest := by simp [outside, h.deep]
  top rest := by simp [outside, h.deep]

theorem of_forall {cs : List Char} (h : ∀ c ∈ cs, c ≠ '(' ∧ c ≠ ')') : Balanced cs := by
  induction cs with
  | nil => exact ⟨fun _ _ => rfl, fun _ => rfl⟩
  | cons c rest ih =>
    obtain ⟨⟨left, right⟩, others⟩ := List.forall_mem_cons.mp h
    exact (char left right).append (ih others)

end Balanced

theorem Balanced.mem_outside_append {cs ds : List Char} (h : Balanced cs) {c : Char} :
    c ∈ outside 0 (cs ++ ds) ↔ c ∈ outside 0 cs ∨ c ∈ outside 0 ds := by
  rw [h.top, List.mem_append]

theorem outside_enclosed {cs : List Char} (h : Balanced cs) : outside 0 ('(' :: (cs ++ [')'])) = [] := by
  simp [outside, h.deep]

theorem outside_of_forall {cs : List Char} (h : ∀ c ∈ cs, c ≠ '(' ∧ c ≠ ')') : outside 0 cs = cs := by
  induction cs with
  | nil => rfl
  | cons c rest ih =>
    obtain ⟨⟨left, right⟩, others⟩ := List.forall_mem_cons.mp h
    rw [outside, if_neg left, if_neg right, if_pos rfl, ih others]

theorem Bare.parentheses {s : String} (h : Bare s) : ∀ c ∈ s.toList, c ≠ '(' ∧ c ≠ ')' := by
  intro c hc
  have plain := h c hc
  constructor
  · rintro rfl
    cases plain
  · rintro rfl
    cases plain

/-- A connective that stands between two blanks outside parentheses. -/
theorem mem_outside {c : Char} (left : c ≠ '(') (right : c ≠ ')') {cs : List Char} (balanced : Balanced cs)
    (rest : List Char) : c ∈ outside 0 (cs ++ ' ' :: c :: rest) := by
  rw [balanced.top]
  refine List.mem_append_right _ ?_
  simp [outside, left, right]

/-- A text is divided in one way only at a connective that stands outside the parentheses of the text after what is
before it. -/
theorem split_unique {c : Char} (left : c ≠ '(') (right : c ≠ ')') (blank : c ≠ ' ') {cs cs' ds ds' : List Char}
    (balanced : Balanced cs) (balanced' : Balanced cs') (absent : c ∉ outside 0 cs) (absent' : c ∉ outside 0 cs')
    (h : cs ++ ' ' :: c :: ds = cs' ++ ' ' :: c :: ds') : cs = cs' ∧ ds = ds' := by
  -- Were one text longer, it would hold the connective that ends the other.
  have longer {cs es ds ds' : List Char} (balanced : Balanced cs) (absent : c ∉ outside 0 (cs ++ es))
      (h : ' ' :: c :: ds = es ++ ' ' :: c :: ds') : es = [] := by
    match es with
    | [] => rfl
    | [_] => simp [blank] at h
    | _ :: _ :: more =>
      simp only [List.cons_append, List.cons.injEq] at h
      obtain ⟨rfl, rfl, -⟩ := h
      exact absurd (mem_outside left right balanced more) absent
  rcases List.append_eq_append_iff.mp h with ⟨es, rfl, rest⟩ | ⟨es, rfl, rest⟩
  · obtain rfl := longer balanced absent' rest
    simpa using rest
  · obtain rfl := longer balanced' absent rest
    simpa using rest.symm

theorem marker_eq : "(assumption) ".toList = '(' :: ("assumption".toList ++ [')']) ++ [' '] := rfl

theorem balanced_marker : Balanced "(assumption) ".toList := by
  rw [marker_eq]
  exact (Balanced.enclosed (.of_forall (by simp))).append (.char (by decide) (by decide))

/-- The connectives that do not stand outside parentheses. -/
def Binding.excludes : Binding → List Char
  | .operand => ['∧', '∨']
  | .conjunction => ['∨']
  | .disjunction => []

theorem Binding.sign {b : Binding} {c : Char} (h : c ∈ b.excludes) : isSign c = true := by
  cases b <;> simp [excludes] at h <;> rcases h with rfl | rfl <;> rfl

theorem Binding.connective {b : Binding} {c : Char} (h : c ∈ b.excludes) : c ≠ '(' ∧ c ≠ ')' ∧ c ≠ ' ' := by
  cases b <;> simp [excludes] at h <;> rcases h with rfl | rfl <;> decide

namespace Reads
variable {b : Binding} {s : String} {φ : Formula}

theorem balanced (h : Reads b s φ) : Balanced s.toList := by
  induction h with
  | statement bare => exact .of_forall bare.parentheses
  | assumption bare =>
    rw [String.toList_append]
    exact balanced_marker.append (.of_forall bare.parentheses)
  | enclosed _ ih =>
    rw [String.toList_append, String.toList_append]
    exact ih.enclosed
  | not _ ih =>
    rw [String.toList_append]
    exact (Balanced.char (by decide) (by decide)).append ih
  | operand _ ih => exact ih
  | and _ _ ih ih' =>
    rw [String.toList_append, String.toList_append]
    exact (ih.append (.of_forall (by simp))).append ih'
  | conjunction _ ih => exact ih
  | or _ _ ih ih' =>
    rw [String.toList_append, String.toList_append]
    exact (ih.append (.of_forall (by simp))).append ih'

theorem excludes (h : Reads b s φ) : ∀ c ∈ b.excludes, c ∉ outside 0 s.toList := by
  induction h with
  | statement bare =>
    intro c hc
    rw [outside_of_forall bare.parentheses]
    exact bare.not_mem (Binding.sign hc)
  | assumption bare =>
    intro c hc
    rw [String.toList_append, balanced_marker.mem_outside_append, outside_of_forall bare.parentheses, not_or]
    refine ⟨fun marked => ?_, bare.not_mem (Binding.sign hc)⟩
    obtain rfl : c = ' ' := List.mem_singleton.mp marked
    exact absurd (Binding.sign hc) (by decide)
  | enclosed inner _ =>
    intro c _
    rw [String.toList_append, String.toList_append]
    exact outside_enclosed inner.balanced ▸ List.not_mem_nil
  | not operand ih =>
    intro c hc
    have negation : Balanced "¬".toList := .of_forall (by simp)
    rw [String.toList_append, negation.mem_outside_append, not_or]
    refine ⟨fun negated => ?_, ih c hc⟩
    obtain rfl : c = '¬' := List.mem_singleton.mp negated
    exact absurd hc (by decide)
  | operand _ ih => exact fun c hc => ih c (List.mem_cons_of_mem _ hc)
  | and left right ih ih' =>
    intro c hc
    have connective : Balanced " ∧ ".toList := .of_forall (by simp)
    rw [String.toList_append, String.toList_append, List.append_assoc, left.balanced.mem_outside_append,
      connective.mem_outside_append, not_or, not_or]
    refine ⟨ih c (List.mem_cons_of_mem _ hc), fun joined => ?_, ih' c hc⟩
    obtain rfl := List.mem_singleton.mp hc
    exact absurd joined (by decide)
  | conjunction _ _ => exact nofun
  | or _ _ _ _ => exact nofun

/-! ### One reading -/

/-- What stands before a connective and after it, if the texts before it have none outside parentheses. -/
theorem divided {c : Char} (absent : c ∈ b.excludes) {joint : String} (sign : joint.toList = [' ', c, ' '])
    {s s' t t' : String} {φ φ' : Formula} (h : Reads b s φ) (h' : Reads b s' φ')
    (same : s ++ joint ++ t = s' ++ joint ++ t') : s = s' ∧ t = t' := by
  obtain ⟨left, right, blank⟩ := Binding.connective absent
  have texts : s.toList ++ ' ' :: c :: ' ' :: t.toList = s'.toList ++ ' ' :: c :: ' ' :: t'.toList := by
    simpa [sign] using congrArg String.toList same
  obtain ⟨before, after⟩ := split_unique left right blank h.balanced h'.balanced (h.excludes c absent)
    (h'.excludes c absent) texts
  exact ⟨String.toList_inj.mp before, String.toList_inj.mp (List.cons.inj after).2⟩

/-- A text with a connective outside parentheses is no reading of one that has none there. -/
theorem not_joined {c : Char} (absent : c ∈ b.excludes) {joint : String} (sign : joint.toList = [' ', c, ' '])
    {b' : Binding} {s t : String} {φ ψ : Formula} (h : Reads b' s φ) (h' : Reads b (s ++ joint ++ t) ψ) : False := by
  obtain ⟨left, right, -⟩ := Binding.connective absent
  refine h'.excludes c absent ?_
  have text : (s ++ joint ++ t).toList = s.toList ++ ' ' :: c :: ' ' :: t.toList := by simp [sign]
  rw [text]
  exact mem_outside left right h.balanced _

/-- A text that enclosing parentheses end is no bare one behind the marker of assumptions. -/
theorem assumption_ne_enclosed {s t : String} (bare : Bare s) : "(assumption) " ++ s ≠ "(" ++ t ++ ")" := by
  intro same
  have last : ("(assumption) ".toList ++ s.toList).getLast? = some ')' := by
    rw [← String.toList_append, same, String.toList_append]
    exact List.getLast?_concat
  rw [List.getLast?_append] at last
  cases hs : s.toList.getLast? with
  | none =>
    rw [hs] at last
    exact absurd last (by decide)
  | some c =>
    rw [hs] at last
    obtain rfl : c = ')' := Option.some.inj last
    exact bare.not_mem rfl (List.mem_of_getLast? hs)

theorem bare_ne_enclosed {s t : String} (bare : Bare s) : s ≠ "(" ++ t ++ ")" := by
  rintro rfl
  exact bare.not_mem (c := '(') rfl (by simp)

theorem bare_ne_assumption {s t : String} (bare : Bare s) : s ≠ "(assumption) " ++ t := by
  rintro rfl
  exact bare.not_mem (c := '(') rfl (by simp)

theorem bare_ne_not {s t : String} (bare : Bare s) : s ≠ "¬" ++ t := by
  rintro rfl
  exact bare.not_mem (c := '¬') rfl (by simp)

theorem not_ne_enclosed {s t : String} : "¬" ++ s ≠ "(" ++ t ++ ")" := fun same => by
  simpa using congrArg (List.head? ∘ String.toList) same

theorem not_ne_assumption {s t : String} : "¬" ++ s ≠ "(assumption) " ++ t := fun same => by
  simpa using congrArg (List.head? ∘ String.toList) same

theorem enclosed_inj {s t : String} (same : "(" ++ s ++ ")" = "(" ++ t ++ ")") : s = t := by
  have texts := congrArg String.toList same
  simpa [← String.toList_inj] using texts

/-- A text is read as one formula at most. -/
theorem unique (h : Reads b s φ) {ψ : Formula} (h' : Reads b s ψ) : φ = ψ := by
  -- The first sign tells the four closed forms apart, and the signs outside parentheses tell where a text is divided.
  induction h generalizing ψ with
  | @statement s bare =>
    generalize same : s = t at h'
    cases h' with
    | statement _ => rfl
    | assumption _ => exact absurd same (bare_ne_assumption bare)
    | enclosed _ => exact absurd same (bare_ne_enclosed bare)
    | not _ => exact absurd same (bare_ne_not bare)
  | @assumption s bare =>
    generalize same : "(assumption) " ++ s = t at h'
    cases h' with
    | statement bare' => exact absurd same.symm (bare_ne_assumption bare')
    | assumption _ => rfl
    | enclosed _ => exact absurd same (assumption_ne_enclosed bare)
    | not _ => exact absurd same.symm not_ne_assumption
  | @enclosed s φ inner ih =>
    generalize same : "(" ++ s ++ ")" = t at h'
    cases h' with
    | statement bare => exact absurd same.symm (bare_ne_enclosed bare)
    | assumption bare => exact absurd same.symm (assumption_ne_enclosed bare)
    | enclosed inner' =>
      obtain rfl := enclosed_inj same
      exact ih inner'
    | not _ => exact absurd same.symm not_ne_enclosed
  | @not s φ operand ih =>
    generalize same : "¬" ++ s = t at h'
    cases h' with
    | statement bare => exact absurd same.symm (bare_ne_not bare)
    | assumption _ => exact absurd same not_ne_assumption
    | enclosed _ => exact absurd same not_ne_enclosed
    | not operand' =>
      obtain rfl : s = _ := by simpa [← String.toList_inj] using congrArg String.toList same
      rw [ih operand']
  | @operand s φ whole ih =>
    generalize same : s = t at h'
    cases h' with
    | operand whole' => exact ih (same ▸ whole')
    | and left right =>
      exact (not_joined (c := '∧') (by decide) rfl left (same ▸ whole)).elim
  | @and s t φ φ' left right ih ih' =>
    generalize same : s ++ " ∧ " ++ t = u at h'
    cases h' with
    | operand whole => exact (not_joined (c := '∧') (by decide) rfl left (same ▸ whole)).elim
    | and left' right' =>
      obtain ⟨rfl, rfl⟩ := divided (c := '∧') (by decide) rfl left left' same
      rw [ih left', ih' right']
  | @conjunction s φ whole ih =>
    generalize same : s = t at h'
    cases h' with
    | conjunction whole' => exact ih (same ▸ whole')
    | or left right =>
      exact (not_joined (c := '∨') (by decide) rfl left (same ▸ whole)).elim
  | @or s t φ φ' left right ih ih' =>
    generalize same : s ++ " ∨ " ++ t = u at h'
    cases h' with
    | conjunction whole =>
      exact (not_joined (c := '∨') (by decide) rfl left (same ▸ whole)).elim
    | or left' right' =>
      obtain ⟨rfl, rfl⟩ := divided (c := '∨') (by decide) rfl left left' same
      rw [ih left', ih' right']

end Reads

end Formula

end Rationale
