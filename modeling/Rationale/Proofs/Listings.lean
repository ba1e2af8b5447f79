import Rationale.Framework.Listing
import Rationale.Proofs.Filling
import Rationale.Proofs.Formulas

/-!
Listings as formulas. The premise of a template is read in one way only, and the reading means what the template says as
long as no conditional is a branch of another: a conditional stands in parentheses among the items of a conjunction, but
not in a branch, where what is tested joins its first side alone.
-/

namespace Rationale

open Formula (Bare Reads isSign outside)

/-- The names and texts an assumption is made of. -/
def Assumption.texts (a : Assumption) : List String :=
  match a.kind with
  | .stated text => [text]
  | .definition adjective text => adjective :: text.toList
  | .comparison adjective base _ => [adjective, base]
  | .rank _ adjective comparison group => [adjective, comparison, group]

def Condition.texts (c : Condition) : List String :=
  c.adjective :: c.via.toList ++ (match c.expected with
    | .text s => [s]
    | _ => [])

namespace Template

/-- The names and texts of a template besides those in its parts. -/
def texts : Template → List String
  | .assume a => a.texts
  | .possess adjective via _ _ => adjective :: via.toList
  | .compare comparison pointer => [comparison, pointer]
  | .compareGroup comparison group _ => [comparison, group]
  | .compared adjective => [adjective]
  | .all _ => []
  | .branch c _ _ => c.texts
  | .recurse pointer adjective goal => [pointer, adjective, goal]

mutual

/-- Every template of which a template is made, itself included. -/
def parts : Template → List Template
  | .all items => .all items :: partsOfAll items
  | .branch c ifTrue ifFalse => .branch c ifTrue ifFalse :: (ifTrue.parts ++ ifFalse.parts)
  | t => [t]

def partsOfAll : List Template → List Template
  | [] => []
  | t :: rest => t.parts ++ partsOfAll rest

end

theorem partsOfAll_eq (items : List Template) : partsOfAll items = items.flatMap parts := by
  induction items with
  | nil => rfl
  | cons t rest ih => rw [partsOfAll, ih, List.flatMap_cons]

theorem mem_parts_self (t : Template) : t ∈ t.parts := by
  cases t <;> exact List.mem_cons_self

theorem parts_item {items : List Template} {t : Template} (h : t ∈ items) : t.parts ⊆ (all items).parts := by
  rw [parts, partsOfAll_eq]
  exact fun s hs => List.mem_cons_of_mem _ (List.mem_flatMap.mpr ⟨t, h, hs⟩)

theorem parts_ifTrue (c : Condition) (ifTrue ifFalse : Template) : ifTrue.parts ⊆ (branch c ifTrue ifFalse).parts :=
  fun _ hs => List.mem_cons_of_mem _ (List.mem_append_left _ hs)

theorem parts_ifFalse (c : Condition) (ifTrue ifFalse : Template) : ifFalse.parts ⊆ (branch c ifTrue ifFalse).parts :=
  fun _ hs => List.mem_cons_of_mem _ (List.mem_append_right _ hs)

theorem parts_trans {s t : Template} (h : s ∈ t.parts) : s.parts ⊆ t.parts := by
  induction t using Template.induct with
  | all items ih =>
    rw [parts, partsOfAll_eq] at h
    rcases List.mem_cons.mp h with rfl | h
    · exact List.Subset.refl _
    · obtain ⟨t, ht, hs⟩ := List.mem_flatMap.mp h
      exact List.Subset.trans (ih t ht hs) (parts_item ht)
  | branch c ifTrue ifFalse ihTrue ihFalse =>
    rcases List.mem_cons.mp h with rfl | h
    · exact List.Subset.refl _
    · rcases List.mem_append.mp h with h | h
      · exact List.Subset.trans (ihTrue h) (parts_ifTrue c ifTrue ifFalse)
      · exact List.Subset.trans (ihFalse h) (parts_ifFalse c ifTrue ifFalse)
  | _ =>
    obtain rfl := List.mem_singleton.mp h
    exact List.Subset.refl _

/-- No name or text of the template holds a sign of a formula, and no conjunction in it is of nothing. -/
structure Printable (t : Template) : Prop where
  bare : ∀ s ∈ t.parts, ∀ text ∈ s.texts, Bare text
  filled : ∀ s ∈ t.parts, s ≠ .all []

/-- No conditional is itself a branch of a conditional. -/
def Unnested (t : Template) : Prop := ∀ c ifTrue ifFalse, .branch c ifTrue ifFalse ∈ t.parts →
  Framework.isBranch ifTrue = false ∧ Framework.isBranch ifFalse = false

theorem Printable.mono {s t : Template} (h : t.Printable) (sub : s.parts ⊆ t.parts) : s.Printable :=
  ⟨fun r hr => h.bare r (sub hr), fun r hr => h.filled r (sub hr)⟩

theorem Unnested.mono {s t : Template} (h : t.Unnested) (sub : s.parts ⊆ t.parts) : s.Unnested :=
  fun c ifTrue ifFalse hr => h c ifTrue ifFalse (sub hr)

end Template

theorem isSign_digit {c : Char} (h : c.isDigit = true) : isSign c = false := by
  refine Bool.eq_false_iff.mpr fun sign => ?_
  simp only [isSign, Bool.or_eq_true, beq_iff_eq] at sign
  rcases sign with (((rfl | rfl) | rfl) | rfl) | rfl <;> exact absurd h (by decide)

theorem isSign_positional (d : Decimal) : ∀ c ∈ d.positional [], isSign c = false := by
  have digit {c : Char} (hc : c ∈ d.chars) : isSign c = false :=
    isSign_digit (Nat.isDigit_of_mem_toDigits (by decide) (by decide) hc)
  have zero {n : Nat} {c : Char} (hc : c ∈ zeros n) : isSign c = false := by
    rw [List.eq_of_mem_replicate hc]
    rfl
  intro c hc
  unfold Decimal.positional at hc
  split at hc
  · rw [List.append_nil] at hc
    exact (List.mem_append.mp hc).elim digit zero
  · split at hc
    · rcases List.mem_append.mp hc with hc | hc
      · exact digit (List.mem_of_mem_take hc)
      · rcases List.mem_cons.mp hc with rfl | hc
        · rfl
        · exact digit (List.mem_of_mem_drop hc)
    · rcases List.mem_cons.mp hc with rfl | hc
      · rfl
      · rcases List.mem_cons.mp hc with rfl | hc
        · rfl
        · exact (List.mem_append.mp hc).elim zero digit

theorem Number.bare_text (x : Number) : Bare x.text := by
  have signed {cs : List Char} (h : ∀ c ∈ cs, isSign c = false) : Bare (x.signed cs) := by
    rw [Bare, Number.signed, String.toList_ofList]
    split
    · exact List.forall_mem_cons.mpr ⟨rfl, h⟩
    · exact h
  unfold Number.text
  split
  · decide
  · split
    · exact signed (by simp [isSign])
    · split
      · exact signed (by simp [isSign])
      · exact signed (isSign_positional _)

theorem Assumption.bare_description {a : Assumption} (h : ∀ text ∈ a.texts, Bare text) {word : String}
    (hword : Bare word) : Bare (a.description word) := by
  obtain ⟨kind, implicit, necessary⟩ := a
  cases kind with
  | stated text => exact h text List.mem_cons_self
  | definition adjective definition =>
    cases definition <;> simp_all +decide [Assumption.texts, Assumption.description, Assumption.quote]
  | comparison adjective base operator =>
    have hoperator : Bare operator.name := by cases operator <;> decide
    simp_all +decide [Assumption.texts, Assumption.description, Assumption.quote]
  | rank kind adjective comparison group =>
    cases kind <;> simp_all +decide [Assumption.texts, Assumption.description, Assumption.quote]

theorem Literal.bare_toText {expected : Literal} (h : ∀ s, expected = .text s → Bare s) : Bare expected.toText := by
  cases expected with
  | bool b => cases b <;> decide
  | number x => exact x.bare_text
  | text s => exact h s rfl

namespace Framework
variable {N : Type} (F : Framework N)

theorem bare_proposition {name subject : String} (hname : Bare name) (hsubject : Bare subject) :
    Bare (F.proposition name subject) := by
  simp only [proposition]
  split <;> simp +decide [hname, hsubject]

/-! ### Meaning -/

/-- The text of a test on the node that the subject stands for. -/
def testText (c : Condition) (subject : String) : String :=
  match c.expected with
  | .bool true => F.proposition c.adjective subject
  | .bool false => "¬(" ++ F.proposition c.adjective subject ++ ")"
  | expected => subject ++ " has " ++ c.adjective ++ " = " ++ expected.toText

/-- What a test says of the node that the subject stands for, where some statements hold. -/
def MeansTest (holds : String → Prop) (c : Condition) (subject : String) : Prop :=
  match c.expected with
  | .bool true => holds (F.proposition c.adjective subject)
  | .bool false => ¬holds (F.proposition c.adjective subject)
  | expected => holds (subject ++ " has " ++ c.adjective ++ " = " ++ expected.toText)

/-- What the test of a conditional says of any node. -/
def MeansCondition (holds : String → Prop) (c : Condition) : Prop :=
  match c.via with
  | some pointer => holds (F.nodeWord ++ " has " ++ pointer) ∧ F.MeansTest holds c pointer
  | none => F.MeansTest holds c F.nodeWord

/-- The statements on any node that a template makes itself. -/
def statements (owner : String) : Template → List String
  | .assume a => ["(assumption) " ++ a.description F.nodeWord]
  | .possess adjective none _ _ => [F.proposition adjective F.nodeWord]
  | .possess adjective (some pointer) _ forwardPointer =>
    (if pointer = owner ∨ !forwardPointer then [] else [F.nodeWord ++ " has " ++ pointer])
      ++ [F.proposition adjective pointer]
  | .compare comparison pointer => [F.nodeWord ++ " is " ++ comparison ++ " than " ++ pointer]
  | .compareGroup comparison group true => [F.nodeWord ++ " is " ++ comparison ++ " than every node in " ++ group]
  | .compareGroup comparison group false => [F.nodeWord ++ " is not " ++ comparison ++ " than any node in " ++ group]
  | .compared adjective => [F.nodeWord ++ "1 has " ++ adjective, F.nodeWord ++ "2 has " ++ adjective]
  | .all _ => []
  | .branch _ _ _ => []
  | .recurse pointer adjective goal =>
    [F.nodeWord ++ " reaches a " ++ goal ++ " " ++ F.nodeWord ++ " through " ++ pointer,
      F.proposition adjective ("that " ++ F.nodeWord)]

mutual

/-- What a template says of any node: a conjunction says all its items, and a conditional what the branch of its test
says. -/
def Means (owner : String) (holds : String → Prop) : Template → Prop
  | .all items => MeansAll owner holds items
  | .branch c ifTrue ifFalse =>
    F.MeansCondition holds c ∧ Means owner holds ifTrue ∨ ¬F.MeansCondition holds c ∧ Means owner holds ifFalse
  | t => ∀ s ∈ F.statements owner t, holds s

def MeansAll (owner : String) (holds : String → Prop) : List Template → Prop
  | [] => True
  | t :: rest => Means owner holds t ∧ MeansAll owner holds rest

end

theorem meansAll_iff {owner : String} {holds : String → Prop} {items : List Template} :
    F.MeansAll owner holds items ↔ ∀ t ∈ items, F.Means owner holds t := by
  induction items with
  | nil => simp [MeansAll]
  | cons t rest ih => rw [MeansAll, ih, List.forall_mem_cons]

mutual

/-- What the premise of a template says, as it is printed, before its `∨`, or altogether if it has none. A branch that
is a conditional stands beside the test with what it says before its own `∨` alone. -/
def SaysBefore (owner : String) (holds : String → Prop) : Template → Prop
  | .all items => SaysAll owner holds items
  | .branch c ifTrue _ => F.MeansCondition holds c ∧ SaysBefore owner holds ifTrue ∨ SaysAfter owner holds ifTrue
  | t => ∀ s ∈ F.statements owner t, holds s

/-- What the premise of a template says after its `∨`. -/
def SaysAfter (owner : String) (holds : String → Prop) : Template → Prop
  | .branch c _ ifFalse => ¬F.MeansCondition holds c ∧ SaysBefore owner holds ifFalse ∨ SaysAfter owner holds ifFalse
  | _ => False

def SaysAll (owner : String) (holds : String → Prop) : List Template → Prop
  | [] => True
  | t :: rest => (SaysBefore owner holds t ∨ SaysAfter owner holds t) ∧ SaysAll owner holds rest

end

/-- What the premise of a template says as it is printed. -/
def Says (owner : String) (holds : String → Prop) (t : Template) : Prop :=
  F.SaysBefore owner holds t ∨ F.SaysAfter owner holds t

theorem saysAll_iff {owner : String} {holds : String → Prop} {items : List Template} :
    F.SaysAll owner holds items ↔ ∀ t ∈ items, F.Says owner holds t := by
  induction items with
  | nil => simp [SaysAll]
  | cons t rest ih => rw [SaysAll, ih, List.forall_mem_cons, Says]

theorem not_saysAfter {owner : String} {holds : String → Prop} {t : Template} (plain : isBranch t = false) :
    ¬F.SaysAfter owner holds t := by
  cases t with
  | branch c ifTrue ifFalse => cases plain
  | _ => exact not_false

theorem says_of_plain {owner : String} {holds : String → Prop} {t : Template} (plain : isBranch t = false) :
    F.Says owner holds t ↔ F.SaysBefore owner holds t :=
  or_iff_left (F.not_saysAfter plain)

/-- The printed premise says what the template says, if no conditional is a branch of another. -/
theorem says_iff_means {owner : String} {holds : String → Prop} {t : Template} (h : t.Unnested) :
    F.Says owner holds t ↔ F.Means owner holds t := by
  induction t using Template.induct with
  | all items ih =>
    rw [says_of_plain F rfl, SaysBefore, saysAll_iff, Means, meansAll_iff]
    exact forall₂_congr fun t ht => ih t ht (h.mono (Template.parts_item ht))
  | branch c ifTrue ifFalse ihTrue ihFalse =>
    obtain ⟨plainTrue, plainFalse⟩ := h c ifTrue ifFalse (Template.mem_parts_self _)
    have sameTrue := ihTrue (h.mono (Template.parts_ifTrue c ifTrue ifFalse))
    have sameFalse := ihFalse (h.mono (Template.parts_ifFalse c ifTrue ifFalse))
    rw [F.says_of_plain plainTrue] at sameTrue
    rw [F.says_of_plain plainFalse] at sameFalse
    rw [Says, SaysBefore, SaysAfter, or_iff_left (F.not_saysAfter plainTrue),
      or_iff_left (F.not_saysAfter plainFalse), sameTrue, sameFalse, Means]
  | _ => exact says_of_plain F rfl

/-! ### Reading -/

section
variable {F} {owner : String}

theorem not_enclosed (s : String) : "¬(" ++ s ++ ")" = "¬" ++ ("(" ++ s ++ ")") := by
  have sign : "¬(" = "¬" ++ "(" := rfl
  rw [sign, String.append_assoc, String.append_assoc, String.append_assoc]

theorem reads_statement {s : String} (h : Bare s) :
    ∃ φ, Reads .conjunction s φ ∧ ∀ holds : String → Prop, φ.Holds holds ↔ holds s :=
  ⟨_, .operand (.statement h), fun _ => Iff.rfl⟩

theorem bare_points (hword : Bare F.nodeWord) {pointer : String} (h : Bare pointer) :
    Bare (F.nodeWord ++ " has " ++ pointer) := by
  simp +decide [hword, h]

theorem reads_test {c : Condition} (h : ∀ text ∈ c.texts, Bare text) {subject : String} (hsubject : Bare subject) :
    ∃ φ, Reads .conjunction (F.testText c subject) φ ∧ ∀ holds, φ.Holds holds ↔ F.MeansTest holds c subject := by
  obtain ⟨adjective, via, expected⟩ := c
  have hadjective : Bare adjective := h _ List.mem_cons_self
  have hexpected : Bare expected.toText := Literal.bare_toText fun s hs => h s (by simp [Condition.texts, hs])
  have named := F.bare_proposition hadjective hsubject
  have equal : Bare (subject ++ " has " ++ adjective ++ " = " ++ expected.toText) := by
    simp +decide [hsubject, hadjective, hexpected]
  rcases expected with (_ | _) | _ | _
  · refine ⟨.not (.statement (F.proposition adjective subject)), ?_, fun _ => Iff.rfl⟩
    rw [testText, not_enclosed]
    exact .operand (.not (.enclosed (.conjunction (.operand (.statement named)))))
  · exact reads_statement named
  · exact reads_statement equal
  · exact reads_statement equal

theorem reads_condition (hword : Bare F.nodeWord) {c : Condition} (h : ∀ text ∈ c.texts, Bare text) :
    ∃ φ, Reads .conjunction (F.conditionFormula c) φ ∧ ∀ holds, φ.Holds holds ↔ F.MeansCondition holds c := by
  obtain ⟨adjective, via, expected⟩ := c
  cases via with
  | none => exact reads_test h hword
  | some pointer =>
    have hpointer : Bare pointer := h _ (by simp [Condition.texts])
    obtain ⟨φ, read, same⟩ := reads_test h hpointer
    exact ⟨_, .and (.statement (bare_points hword hpointer)) read, fun holds => and_congr_right' (same holds)⟩

theorem reads_statements (owner : String) (hword : Bare F.nodeWord) {t : Template} (h : ∀ text ∈ t.texts, Bare text) :
    ∀ s ∈ F.statements owner t, Reads .operand s (.statement s) := by
  have all {texts : List String} (h : ∀ s ∈ texts, Bare s) : ∀ s ∈ texts, Reads .operand s (.statement s) :=
    fun s hs => .statement (h s hs)
  cases t with
  | assume a =>
    rw [statements, List.forall_mem_singleton]
    exact .assumption (a.bare_description h hword)
  | possess adjective via explainFurther forwardPointer =>
    refine all ?_
    have hadjective : Bare adjective := h _ List.mem_cons_self
    cases via with
    | none => exact List.forall_mem_singleton.mpr (F.bare_proposition hadjective hword)
    | some pointer =>
      have hpointer : Bare pointer := h _ (by simp [Template.texts])
      refine List.forall_mem_append.mpr ⟨?_, List.forall_mem_singleton.mpr (F.bare_proposition hadjective hpointer)⟩
      split
      · exact nofun
      · exact List.forall_mem_singleton.mpr (bare_points hword hpointer)
  | compare comparison pointer =>
    simp only [Template.texts, List.forall_mem_cons] at h
    refine all (List.forall_mem_singleton.mpr ?_)
    simp +decide [hword, h.1, h.2.1]
  | compareGroup comparison group positive =>
    simp only [Template.texts, List.forall_mem_cons] at h
    refine all ?_
    cases positive <;> refine List.forall_mem_singleton.mpr ?_ <;> simp +decide [hword, h.1, h.2.1]
  | compared adjective =>
    have hadjective := h _ List.mem_cons_self
    refine all (List.forall_mem_cons.mpr ⟨?_, List.forall_mem_singleton.mpr ?_⟩)
    · simp +decide [hword, hadjective]
    · simp +decide [hword, hadjective]
  | all items => exact nofun
  | branch c ifTrue ifFalse => exact nofun
  | recurse pointer adjective goal =>
    simp only [Template.texts, List.forall_mem_cons] at h
    obtain ⟨hpointer, hadjective, hgoal, -⟩ := h
    have there : Bare ("that " ++ F.nodeWord) := by simp +decide [hword]
    refine all (List.forall_mem_cons.mpr ⟨?_, List.forall_mem_singleton.mpr (F.bare_proposition hadjective there)⟩)
    simp +decide [hword, hgoal, hpointer]

/-- A template that is no conjunction and no conditional is printed as what it states. -/
theorem premise_eq_statements (owner : String) {t : Template} (notAll : ∀ items, t ≠ .all items)
    (notBranch : ∀ c ifTrue ifFalse, t ≠ .branch c ifTrue ifFalse) :
    F.statements owner t ≠ [] ∧ F.premise owner t = " ∧ ".intercalate (F.statements owner t) := by
  cases t with
  | possess adjective via explainFurther forwardPointer =>
    cases via with
    | none => exact ⟨List.cons_ne_nil _ _, (String.intercalate_singleton).symm⟩
    | some pointer =>
      rw [statements, premise]
      split <;> simp [String.intercalate_cons_cons]
  | compareGroup comparison group positive => cases positive <;> simp [statements, premise]
  | all items => exact absurd rfl (notAll items)
  | branch c ifTrue ifFalse => exact absurd rfl (notBranch c ifTrue ifFalse)
  | _ => simp [statements, premise, String.intercalate_cons_cons, String.append_assoc]

theorem premises_eq (items : List Template) : F.premises owner items = items.map fun t =>
    if isBranch t then "(" ++ F.premise owner t ++ ")" else F.premise owner t := by
  induction items with
  | nil => rfl
  | cons t rest ih => rw [premises, ih, List.map_cons]

theorem premise_branch (c : Condition) (ifTrue ifFalse : Template) : F.premise owner (.branch c ifTrue ifFalse) =
    "(" ++ (F.conditionFormula c ++ " ∧ " ++ F.premise owner ifTrue) ++ ")" ++ " ∨ " ++
      ("(" ++ ("¬" ++ ("(" ++ F.conditionFormula c ++ ")") ++ " ∧ " ++ F.premise owner ifFalse) ++ ")") := by
  have between : ") ∨ (¬(" = ")" ++ (" ∨ " ++ ("(" ++ ("¬" ++ "("))) := rfl
  have after : ") ∧ " = ")" ++ " ∧ " := rfl
  rw [premise, between, after]
  simp only [String.append_assoc]

/-- How the premise of a template is read: only a conditional is a disjunction. -/
def bindingOf (t : Template) : Formula.Binding := if isBranch t then .disjunction else .conjunction

/-- The premise has a reading, alone and after what is tested. -/
structure ReadsPremise (F : Framework N) (owner : String) (t : Template) : Prop where
  alone : ∃ φ, Reads (bindingOf t) (F.premise owner t) φ ∧ ∀ holds, φ.Holds holds ↔ F.Says owner holds t
  beside : ∀ {s γ}, Reads .conjunction s γ → ∃ φ, Reads .disjunction (s ++ " ∧ " ++ F.premise owner t) φ ∧
    ∀ holds, φ.Holds holds ↔ γ.Holds holds ∧ F.SaysBefore owner holds t ∨ F.SaysAfter owner holds t

theorem ReadsPremise.of_conjunction {t : Template} (plain : isBranch t = false)
    (h : ∃ φ, Reads .conjunction (F.premise owner t) φ ∧ ∀ holds, φ.Holds holds ↔ F.SaysBefore owner holds t) :
    F.ReadsPremise owner t := by
  obtain ⟨φ, read, same⟩ := h
  constructor
  · rw [bindingOf, plain]
    exact ⟨φ, read, fun holds => (same holds).trans (F.says_of_plain plain).symm⟩
  · intro s γ tested
    obtain ⟨χ, joined, both⟩ := tested.join read
    exact ⟨χ, .conjunction joined, fun holds => by rw [both, same, or_iff_left (F.not_saysAfter plain)]⟩

/-- A template that is no conjunction and no conditional is read as what it states. -/
theorem ReadsPremise.of_statements (hword : Bare F.nodeWord) {t : Template} (h : t.Printable)
    (notAll : ∀ items, t ≠ .all items) (notBranch : ∀ c ifTrue ifFalse, t ≠ .branch c ifTrue ifFalse) :
    F.ReadsPremise owner t := by
  obtain ⟨nonempty, text⟩ := premise_eq_statements (F := F) owner notAll notBranch
  have bare := h.bare _ (Template.mem_parts_self t)
  obtain ⟨φ, read, same⟩ : ∃ φ, Reads .conjunction (" ∧ ".intercalate ((F.statements owner t).map id)) φ ∧
      ∀ holds, φ.Holds holds ↔ ∀ s ∈ F.statements owner t, holds s :=
    Reads.joinAll nonempty fun s hs => ⟨_, .operand (reads_statements owner hword bare s hs), fun _ => Iff.rfl⟩
  rw [List.map_id, ← text] at read
  cases t with
  | all items => exact absurd rfl (notAll items)
  | branch c ifTrue ifFalse => exact absurd rfl (notBranch c ifTrue ifFalse)
  | _ => exact .of_conjunction rfl ⟨φ, read, same⟩

/-- An item of a conjunction, in parentheses if it is a conditional. -/
theorem ReadsPremise.item {t : Template} (h : F.ReadsPremise owner t) :
    ∃ φ, Reads .conjunction (if isBranch t then "(" ++ F.premise owner t ++ ")" else F.premise owner t) φ ∧
      ∀ holds, φ.Holds holds ↔ F.Says owner holds t := by
  obtain ⟨φ, read, same⟩ := h.alone
  cases plain : isBranch t with
  | true =>
    rw [bindingOf, plain] at read
    exact ⟨φ, .operand (.enclosed read), same⟩
  | false =>
    rw [bindingOf, plain] at read
    exact ⟨φ, read, same⟩

theorem reads_premise (owner : String) (hword : Bare F.nodeWord) {t : Template} (h : t.Printable) :
    F.ReadsPremise owner t := by
  -- A conditional is printed as two conjunctions beside `∨`, so its branches are read as what stands beside `∧`.
  induction t using Template.induct with
  | all items ih =>
    have nonempty : items ≠ [] := by
      rintro rfl
      exact h.filled _ (Template.mem_parts_self _) rfl
    obtain ⟨φ, read, same⟩ := Reads.joinAll nonempty fun t ht => (ih t ht (h.mono (Template.parts_item ht))).item
    refine .of_conjunction rfl ⟨φ, ?_, fun holds => (same holds).trans F.saysAll_iff.symm⟩
    rwa [premise, premises_eq]
  | branch c ifTrue ifFalse ihTrue ihFalse =>
    obtain ⟨γ, tested, means⟩ := reads_condition hword (h.bare _ (Template.mem_parts_self _))
    obtain ⟨φ, readTrue, sameTrue⟩ := (ihTrue (h.mono (Template.parts_ifTrue c ifTrue ifFalse))).beside tested
    obtain ⟨ψ, readFalse, sameFalse⟩ := (ihFalse (h.mono (Template.parts_ifFalse c ifTrue ifFalse))).beside
      (.operand (.not (.enclosed (.conjunction tested))))
    have before : ∀ holds, φ.Holds holds ↔ F.SaysBefore owner holds (.branch c ifTrue ifFalse) := fun holds => by
      rw [sameTrue, means, SaysBefore]
    have after : ∀ holds, ψ.Holds holds ↔ F.SaysAfter owner holds (.branch c ifTrue ifFalse) := fun holds => by
      rw [sameFalse, Formula.Holds, means, SaysAfter]
    have first : Reads .operand _ φ := .enclosed readTrue
    have second : Reads .disjunction _ ψ := .conjunction (.operand (.enclosed readFalse))
    constructor
    · refine ⟨.or φ ψ, ?_, fun holds => by rw [Formula.Holds, before, after, Says]⟩
      rw [premise_branch]
      exact .or (.operand first) second
    -- A conjunction with the conditional binds more closely than its `∨`, so it takes the first side only.
    · intro s δ read
      obtain ⟨χ, joined, both⟩ := read.join (.operand first)
      refine ⟨.or χ ψ, ?_, fun holds => by rw [Formula.Holds, both, before, after]⟩
      have text (left right : String) :
          s ++ " ∧ " ++ (left ++ " ∨ " ++ right) = s ++ " ∧ " ++ left ++ " ∨ " ++ right := by
        simp only [String.append_assoc]
      rw [premise_branch, text]
      exact .or joined second
  | _ => exact .of_statements hword h (by simp) (by simp)

/-! ### What stands beside a conjunction sign -/

/-- The texts that the test of a conditional joins with `∧`. -/
def testOperands (F : Framework N) (c : Condition) : List String :=
  match c.via with
  | some pointer => [F.nodeWord ++ " has " ++ pointer, F.testText c pointer]
  | none => []

/-- The texts that a template joins with `∧` itself. -/
def operands (F : Framework N) (owner : String) : Template → List String
  | .all items => F.premises owner items
  | .branch c ifTrue ifFalse => F.testOperands c ++ [F.conditionFormula c, F.premise owner ifTrue,
      "¬(" ++ F.conditionFormula c ++ ")", F.premise owner ifFalse]
  | t => F.statements owner t

/-- No `∨` stands outside parentheses. -/
def Whole (s : String) : Prop := '∨' ∉ outside 0 s.toList

theorem whole_of_reads {s : String} {φ : Formula} (h : Reads .conjunction s φ) : Whole s :=
  h.excludes '∨' List.mem_cons_self

theorem whole_of_bare {s : String} (h : Bare s) : Whole s := whole_of_reads (.operand (.statement h))

theorem whole_premise (owner : String) (hword : Bare F.nodeWord) {t : Template} (h : t.Printable) :
    Whole (F.premise owner t) ↔ isBranch t = false := by
  obtain ⟨φ, read, -⟩ := (reads_premise owner hword h).alone
  cases plain : isBranch t with
  | false =>
    rw [bindingOf, plain] at read
    exact iff_of_true (whole_of_reads read) rfl
  | true =>
    obtain ⟨c, ifTrue, ifFalse, rfl⟩ : ∃ c ifTrue ifFalse, t = .branch c ifTrue ifFalse := by
      cases t <;> first | exact ⟨_, _, _, rfl⟩ | cases plain
    obtain ⟨γ, tested, -⟩ := reads_condition hword (h.bare _ (Template.mem_parts_self _))
    obtain ⟨χ, left, -⟩ := (reads_premise owner hword (h.mono (Template.parts_ifTrue c ifTrue ifFalse))).beside
      tested
    refine iff_of_false (fun whole => whole ?_) nofun
    rw [premise_branch, String.toList_append, String.toList_append, List.append_assoc]
    exact Formula.mem_outside (c := '∨') (by decide) (by decide) (Reads.enclosed left).balanced _

theorem whole_testOperands (hword : Bare F.nodeWord) {c : Condition} (h : ∀ text ∈ c.texts, Bare text) :
    ∀ s ∈ F.testOperands c, Whole s := by
  obtain ⟨adjective, via, expected⟩ := c
  cases via with
  | none => exact nofun
  | some pointer =>
    have hpointer : Bare pointer := h _ (by simp [Condition.texts])
    obtain ⟨φ, read, -⟩ := reads_test (F := F) h hpointer
    have points := whole_of_bare (bare_points hword hpointer)
    exact List.forall_mem_cons.mpr ⟨points, List.forall_mem_singleton.mpr (whole_of_reads read)⟩

/-- Only where a branch of a conditional is one itself, a disjunction stands beside `∧` without parentheses. -/
theorem whole_operands (hword : Bare F.nodeWord) {t : Template} (h : t.Printable) :
    (∀ s ∈ F.operands owner t, Whole s) ↔
      ∀ c ifTrue ifFalse, t = .branch c ifTrue ifFalse → isBranch ifTrue = false ∧ isBranch ifFalse = false := by
  have bare := h.bare _ (Template.mem_parts_self _)
  cases t with
  | all items =>
    refine iff_of_true ?_ nofun
    rw [operands, premises_eq, List.forall_mem_map]
    intro t ht
    obtain ⟨φ, read, -⟩ := (reads_premise owner hword (h.mono (Template.parts_item ht))).item
    exact whole_of_reads read
  | branch c ifTrue ifFalse =>
    have hTrue := whole_premise owner hword (h.mono (Template.parts_ifTrue c ifTrue ifFalse))
    have hFalse := whole_premise owner hword (h.mono (Template.parts_ifFalse c ifTrue ifFalse))
    obtain ⟨γ, tested, -⟩ := reads_condition hword bare
    have negated : Whole ("¬(" ++ F.conditionFormula c ++ ")") := by
      rw [not_enclosed]
      exact whole_of_reads (.operand (.not (.enclosed (.conjunction tested))))
    constructor
    · rintro whole _ _ _ ⟨rfl, rfl, rfl⟩
      simp only [operands, List.forall_mem_append, List.forall_mem_cons] at whole
      exact ⟨hTrue.mp whole.2.2.1, hFalse.mp whole.2.2.2.2.1⟩
    · intro plain
      obtain ⟨plainTrue, plainFalse⟩ := plain c ifTrue ifFalse rfl
      simp only [operands, List.forall_mem_append, List.forall_mem_cons]
      exact ⟨whole_testOperands hword bare, whole_of_reads tested, hTrue.mpr plainTrue, negated,
        hFalse.mpr plainFalse, nofun⟩
  | _ => exact iff_of_true (fun s hs => whole_of_reads (.operand (reads_statements owner hword bare s hs))) nofun

end

/-- How the premise of a template is read: in one way, and with the meaning of the template if no conditional in it is
a branch of another. Only in the other templates a disjunction stands beside `∧` without parentheses. -/
structure Tells (F : Framework N) (owner : String) (t : Template) (φ : Formula) : Prop where
  read : Reads .disjunction (F.premise owner t) φ
  only : ∀ ψ, Reads .disjunction (F.premise owner t) ψ → ψ = φ
  printed : ∀ holds, φ.Holds holds ↔ F.Says owner holds t
  means : t.Unnested → ∀ holds, φ.Holds holds ↔ F.Means owner holds t
  whole : (∀ part ∈ t.parts, ∀ s ∈ F.operands owner part, Whole s) ↔ t.Unnested

theorem tells_of_printable {F : Framework N} (hword : Bare F.nodeWord) (owner : String) {t : Template}
    (h : t.Printable) : ∃ φ, F.Tells owner t φ := by
  obtain ⟨φ, read, printed⟩ := (reads_premise owner hword h).alone
  have read : Reads .disjunction (F.premise owner t) φ := by
    unfold bindingOf at read
    split at read
    · exact read
    · exact .conjunction read
  refine ⟨φ, read, fun ψ read' => read'.unique read, printed,
    fun unnested holds => (printed holds).trans (F.says_iff_means unnested), fun whole c ifTrue ifFalse hpart => ?_,
    fun unnested part hpart => ?_⟩
  · exact (whole_operands hword (h.mono (Template.parts_trans hpart))).mp (whole _ hpart) c ifTrue ifFalse rfl
  · refine (whole_operands hword (h.mono (Template.parts_trans hpart))).mpr ?_
    rintro c ifTrue ifFalse rfl
    exact unnested c ifTrue ifFalse hpart

/-- Every implication of the listing is the premise of a template and its conclusion, and such a premise tells what the
template says as far as conditionals are not nested. -/
theorem listed_tells {F : Framework N} (hword : Bare F.nodeWord) :
    (∀ a ∈ F.adjectives,
      "  " ++ F.premise a.name a.template ++ " → " ++ F.proposition a.name F.nodeWord ∈ F.lines) ∧
    ∀ owner t, t.Printable → ∃ φ, F.Tells owner t φ := by
  refine ⟨fun a ha => ?_, fun owner t => tells_of_printable hword owner⟩
  exact List.mem_append_left _ (List.mem_append_right _ (List.mem_cons_of_mem _ (List.mem_map_of_mem ha)))

end Framework

namespace Coin

/-- What a side is staked on: twice the stake if it is lucky. -/
def luck : Template := .branch ⟨"lucky", none, .bool true⟩ (.assume (.stated "double")) (.assume (.stated "single"))

/-- A conditional whose branch is a conjunction of another one. -/
def prize : Template := .branch ⟨"winning", none, .bool true⟩ (.all [luck]) (.assume (.stated "nothing"))

/-- A conditional whose branch is another one. -/
def stake : Template := .branch ⟨"winning", none, .bool true⟩ luck (.assume (.stated "nothing"))

def wager : Framework Coin where
  nodeWord := "side"
  adjectives := [
    { name := "winning", kind := .boolean, getter := some fun c => .ok (.bool (c == heads)) },
    { name := "lucky", kind := .boolean, getter := some fun c => .ok (.bool (c == heads)) },
    { name := "prize", kind := .boolean, getter := some fun c => .ok (.bool (c == heads)), explanation := some prize },
    { name := "stake", kind := .boolean, getter := some fun c => .ok (.bool (c == heads)), explanation := some stake }]

theorem prize_tells : Bare wager.nodeWord ∧ prize.Printable ∧ prize.Unnested ∧
    ∃ φ, wager.Tells "prize" prize φ := by
  have hword : Bare wager.nodeWord := by decide
  have printable : prize.Printable := by
    constructor
    · decide
    · simp [prize, luck, Template.parts, Template.partsOfAll]
  have unnested : prize.Unnested := by
    intro c ifTrue ifFalse hpart
    simp [prize, luck, Template.parts, Template.partsOfAll] at hpart
    rcases hpart with ⟨-, rfl, rfl⟩ | ⟨-, rfl, rfl⟩ <;> exact ⟨rfl, rfl⟩
  exact ⟨hword, printable, unnested, (Framework.listed_tells hword).2 "prize" prize printable⟩

/-- The premise of a conditional within another one is read as a formula that may hold where the template says
otherwise: a side that is not winning is not staked on, and is read as staked on if it is not lucky either. -/
theorem stake_misread : Bare wager.nodeWord ∧ stake.Printable ∧
    ∃ φ, Reads .disjunction (wager.premise "stake" stake) φ ∧
      (∀ ψ, Reads .disjunction (wager.premise "stake" stake) ψ → ψ = φ) ∧
      (∃ holds, φ.Holds holds ∧ ¬wager.Means "stake" holds stake) ∧
      ∃ part ∈ stake.parts, ∃ s ∈ wager.operands "stake" part, '∨' ∈ outside 0 s.toList := by
  have printable : stake.Printable := by
    constructor
    · decide
    · simp [stake, luck, Template.parts]
  obtain ⟨φ, tells⟩ := Framework.tells_of_printable (F := wager) (by decide) "stake" printable
  refine ⟨by decide, printable, φ, tells.read, tells.only, ⟨(· = "(assumption) single"), ?_, ?_⟩, stake,
    List.mem_cons_self, wager.premise "stake" luck, ?_, ?_⟩
  · have unlucky : "side is lucky" ≠ "(assumption) single" := by decide
    -- What the inner conditional says after its `∨` is not joined with the test of the outer one.
    have apart : wager.SaysAfter "stake" (· = "(assumption) single") luck :=
      .inl ⟨unlucky, List.forall_mem_singleton.mpr rfl⟩
    exact (tells.printed _).mpr (.inl (.inr apart))
  · have lost : "side is winning" ≠ "(assumption) single" := by decide
    have staked : "(assumption) nothing" ≠ "(assumption) single" := by decide
    rintro (⟨winning, -⟩ | ⟨-, nothing⟩)
    · exact lost winning
    · exact staked (nothing _ List.mem_cons_self)
  · exact List.mem_append_right _ (List.mem_cons_of_mem _ List.mem_cons_self)
  · decide

end Coin

end Rationale
