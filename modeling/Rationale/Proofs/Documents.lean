import Mathlib.Data.List.Forall2
import Rationale.Proofs.Tokens

/-!
Documents of written values. The indented form of a value is cut into its tokens, with commas between the entries of
containers and names before colons, and the tokens are put together to the document of the value: the same containers,
with the fields as they were written.
-/

namespace Rationale.Json

mutual

/-- What is read where a value was written. -/
def document : Json → Document
  | .null => .null
  | .bool b => .bool b
  | .integer i => .number (some (.integer i))
  | .float x => .number (some (.float x))
  | .text s => .text (some s)
  | .list items => .list (documents items)
  | .record fields => .record (namedDocuments fields)

def documents : List Json → List Document
  | [] => []
  | item :: rest => item.document :: documents rest

def namedDocuments : List (String × Json) → List (Option String × Document)
  | [] => []
  | (name, value) :: rest => (some name, value.document) :: namedDocuments rest

end

mutual

/-- The tokens of a written value. -/
def tokens : Json → List Token
  | .null => [.null]
  | .bool b => [.bool b]
  | .integer i => [.number (some (.integer i))]
  | .float x => [.number (some (.float x))]
  | .text s => [.text (some s)]
  | .list items => .openList :: [Token.comma].intercalate (itemTokens items) ++ [.closeList]
  | .record fields => .openRecord :: [Token.comma].intercalate (fieldTokens fields) ++ [.closeRecord]

def itemTokens : List Json → List (List Token)
  | [] => []
  | item :: rest => item.tokens :: itemTokens rest

def fieldTokens : List (String × Json) → List (List Token)
  | [] => []
  | (name, value) :: rest => (.text (some name) :: .colon :: value.tokens) :: fieldTokens rest

end

/-- A value whose numbers are read back from their words. -/
inductive Legible : Json → Prop
  | null : Legible .null
  | bool (b : Bool) : Legible (.bool b)
  | integer {i : Int} (word : Word (intForm i).toList (.number (some (.integer i)))) : Legible (.integer i)
  | float {x : Number} (word : Word x.jsonText.toList (.number (some (.float x)))) : Legible (.float x)
  | text (s : String) : Legible (.text s)
  | list {items : List Json} (h : ∀ item ∈ items, Legible item) : Legible (.list items)
  | record {fields : List (String × Json)} (h : ∀ f ∈ fields, Legible f.2) : Legible (.record fields)

/-- A text is cut into some tokens, whatever comes after it. -/
def Yields (s : List Char) (ts : List Token) : Prop :=
  ∀ rest, Breaks rest → tokens? (.word []) (s ++ rest) = (tokens? (.word []) rest).map (ts ++ ·)

theorem Word.yields {w : List Char} {token : Token} (h : Word w token) : Yields w [token] :=
  fun _ breaks => h.tokens? breaks

theorem yields_textForm (s : String) : Yields (textForm s).toList [.text (some s)] :=
  fun rest _ => tokens?_textForm s rest

namespace Yields

variable {s s' : List Char} {ts ts' : List Token}

theorem append (h : Yields s ts) (h' : Yields s' ts') (breaks : Breaks s') (there : s' ≠ []) :
    Yields (s ++ s') (ts ++ ts') := by
  intro rest further
  have breaks' : Breaks (s' ++ rest) := by
    cases s' with
    | nil => exact absurd rfl there
    | cons c more => exact breaks
  rw [List.append_assoc, h _ breaks', h' _ further, Option.map_map]
  refine congrArg (Option.map · _) (funext fun ts'' => ?_)
  rw [Function.comp, List.append_assoc]

/-- What breaks a word is cut off without looking at what follows. -/
theorem after_punctuation {c : Char} {token : Token} (mark : punctuation? c = some token) (h : Yields s ts) :
    Yields (c :: s) (token :: ts) := by
  intro rest breaks
  rw [List.cons_append, tokens?_punctuation mark, h _ breaks, Option.map_map]
  rfl

theorem after_blanks {blanks : List Char} (blank : ∀ c ∈ blanks, isJsonBlank c = true) (h : Yields s ts) :
    Yields (blanks ++ s) ts := by
  intro rest breaks
  rw [List.append_assoc, tokens?_blanks blank, h _ breaks]

end Yields

theorem breaks_punctuation {c : Char} {token : Token} (mark : punctuation? c = some token) (more : List Char) :
    Breaks (c :: more) := by
  rintro _ ⟨⟩
  simp [isBreak, mark]

theorem breaks_blank {c : Char} (blank : isJsonBlank c = true) (more : List Char) : Breaks (c :: more) := by
  rintro _ ⟨⟩
  simp [isBreak, blank]

/-- Entries with a comma and blanks between them. -/
theorem yields_entries {inner : List Char} (blank : ∀ c ∈ inner, isJsonBlank c = true) {entries : List (List Char)}
    {tss : List (List Token)} (h : List.Forall₂ Yields entries tss) (there : entries ≠ []) :
    Yields ((',' :: inner).intercalate entries) ([Token.comma].intercalate tss) := by
  induction h with
  | nil => exact absurd rfl there
  | cons first rest ih =>
    cases rest with
    | nil => simpa using first
    | cons second rest =>
      have comma : punctuation? ',' = some .comma := rfl
      have later := ((ih (List.cons_ne_nil _ _)).after_blanks blank).after_punctuation comma
      rw [List.intercalate_cons_cons, List.intercalate_cons_cons, List.append_assoc, List.append_assoc]
      exact first.append later (breaks_punctuation rfl _) (List.cons_ne_nil _ _)

theorem yields_punctuation {c : Char} {token : Token} (mark : punctuation? c = some token) : Yields [c] [token] :=
  fun rest _ => tokens?_punctuation mark rest

/-- A container with its entries on lines of their own. -/
theorem yields_block {left right : String} {l r : Char} {opening closing : Token} (hleft : left.toList = [l])
    (hright : right.toList = [r]) (opens : punctuation? l = some opening) (closes : punctuation? r = some closing)
    {margin : String} (blank : ∀ c ∈ margin.toList, isJsonBlank c = true) {entries : List String}
    {tss : List (List Token)} (h : List.Forall₂ Yields (entries.map String.toList) tss) :
    Yields (block left right margin entries).toList (opening :: [Token.comma].intercalate tss ++ [closing]) := by
  have last : Yields ('\n' :: margin.toList ++ [r]) [closing] :=
    (yields_punctuation closes).after_blanks (List.forall_mem_cons.mpr ⟨rfl, blank⟩)
  cases entries with
  | nil =>
    cases h
    rw [block, if_pos List.isEmpty_nil, String.toList_append, hleft, hright]
    exact (yields_punctuation closes).after_punctuation opens
  | cons entry rest =>
    have inner : ∀ c ∈ ("\n" ++ margin ++ "  ").toList, isJsonBlank c = true := by
      simp only [String.toList_append, List.forall_mem_append]
      exact ⟨⟨List.all_eq_true.mp rfl, blank⟩, List.all_eq_true.mp rfl⟩
    -- What is written: the opening sign, blanks, the entries with commas and blanks between them, and the closing sign.
    have body := (yields_entries inner h (List.cons_ne_nil _ _)).append last (breaks_blank rfl _) (List.cons_ne_nil _ _)
    have whole := (body.after_blanks inner).after_punctuation opens
    have shape : (block left right margin (entry :: rest)).toList = l :: (("\n" ++ margin ++ "  ").toList
        ++ ((',' :: ("\n" ++ margin ++ "  ").toList).intercalate ((entry :: rest).map String.toList)
          ++ ('\n' :: margin.toList ++ [r]))) := by
      simp [block, String.toList_intercalate, hleft, hright]
    rw [shape]
    exact whole

theorem yields_items {margin : String} {items : List Json}
    (h : ∀ item ∈ items, Yields (item.pretty margin).toList item.tokens) :
    List.Forall₂ Yields ((prettyItems margin items).map String.toList) (itemTokens items) := by
  induction items with
  | nil => exact .nil
  | cons item rest ih =>
    obtain ⟨first, later⟩ := List.forall_mem_cons.mp h
    exact .cons first (ih later)

theorem yields_fields {margin : String} {fields : List (String × Json)}
    (h : ∀ f ∈ fields, Yields (f.2.pretty margin).toList f.2.tokens) :
    List.Forall₂ Yields ((prettyFields margin fields).map String.toList) (fieldTokens fields) := by
  induction fields with
  | nil => exact .nil
  | cons f rest ih =>
    obtain ⟨name, value⟩ := f
    obtain ⟨first, later⟩ := List.forall_mem_cons.mp h
    have colon : Yields (':' :: ([' '] ++ (value.pretty margin).toList)) (.colon :: value.tokens) :=
      (first.after_blanks (List.all_eq_true.mp rfl)).after_punctuation rfl
    have named := (yields_textForm name).append colon (breaks_punctuation rfl _) (List.cons_ne_nil _ _)
    have shape : (textForm name ++ ": " ++ value.pretty margin).toList
        = (textForm name).toList ++ ':' :: ([' '] ++ (value.pretty margin).toList) := by
      simp
    rw [prettyFields, List.map_cons, fieldTokens, shape]
    exact .cons named (ih later)

theorem blank_deeper {margin : String} (blank : ∀ c ∈ margin.toList, isJsonBlank c = true) :
    ∀ c ∈ (margin ++ "  ").toList, isJsonBlank c = true := by
  rw [String.toList_append]
  exact List.forall_mem_append.mpr ⟨blank, List.all_eq_true.mp rfl⟩

theorem Legible.yields_pretty {j : Json} (h : Legible j) {margin : String}
    (blank : ∀ c ∈ margin.toList, isJsonBlank c = true) : Yields (j.pretty margin).toList j.tokens := by
  induction h generalizing margin with
  | null => exact word_null.yields
  | bool b => exact (word_bool b).yields
  | integer word => exact word.yields
  | float word => exact word.yields
  | text s => exact yields_textForm s
  | list _ ih =>
    have items := yields_items fun item hitem => ih item hitem (blank_deeper blank)
    exact yields_block rfl rfl rfl rfl blank items
  | record _ ih =>
    have fields := yields_fields fun f hf => ih f hf (blank_deeper blank)
    exact yields_block rfl rfl rfl rfl blank fields

/-! ### Reading -/

/-- The first token of a value is not the end of a container. -/
theorem tokens_cons (j : Json) : ∃ token more, j.tokens = token :: more ∧ token ≠ .closeList ∧ token ≠ .closeRecord := by
  cases j <;> exact ⟨_, _, rfl, nofun, nofun⟩

theorem length_tokens_pos (j : Json) : 0 < j.tokens.length := by
  obtain ⟨token, more, begins, -⟩ := tokens_cons j
  rw [begins]
  exact Nat.succ_pos _

/-- A value is read from its tokens if there are steps enough, two for every token but one. -/
def Reads (j : Json) : Prop := ∀ fuel rest, 2 * j.tokens.length ≤ fuel + 1 →
  value? fuel (j.tokens ++ rest) = some (j.document, rest)

theorem items?_tokens {items : List Json} (reads : ∀ item ∈ items, Reads item) (there : items ≠ []) {fuel : Nat}
    (enough : 2 * ([Token.comma].intercalate (itemTokens items)).length ≤ fuel) (rest : List Token) :
    items? fuel ([Token.comma].intercalate (itemTokens items) ++ .closeList :: rest) = some (documents items, rest) := by
  induction items generalizing fuel with
  | nil => exact absurd rfl there
  | cons item more ih =>
    obtain ⟨first, later⟩ := List.forall_mem_cons.mp reads
    have long := item.length_tokens_pos
    cases more with
    | nil =>
      simp only [itemTokens, List.intercalate_singleton] at enough ⊢
      obtain ⟨fuel, rfl⟩ := Nat.exists_eq_add_one_of_ne_zero (by omega : fuel ≠ 0)
      rw [items?, first fuel _ enough]
      rfl
    | cons next more =>
      rw [itemTokens, itemTokens, List.intercalate_cons_cons, ← itemTokens] at enough ⊢
      simp only [List.length_append, List.length_singleton] at enough
      obtain ⟨fuel, rfl⟩ := Nat.exists_eq_add_one_of_ne_zero (by omega : fuel ≠ 0)
      have further := ih later (List.cons_ne_nil _ _) (by omega : _ ≤ fuel)
      rw [List.append_assoc, List.append_assoc, items?, first fuel _ (by omega), documents]
      simp [further]

theorem fields?_tokens {fields : List (String × Json)} (reads : ∀ f ∈ fields, Reads f.2) (there : fields ≠ [])
    {fuel : Nat} (enough : 2 * ([Token.comma].intercalate (fieldTokens fields)).length ≤ fuel) (rest : List Token) :
    fields? fuel ([Token.comma].intercalate (fieldTokens fields) ++ .closeRecord :: rest)
      = some (namedDocuments fields, rest) := by
  induction fields generalizing fuel with
  | nil => exact absurd rfl there
  | cons f more ih =>
    obtain ⟨name, value⟩ := f
    obtain ⟨first, later⟩ := List.forall_mem_cons.mp reads
    cases more with
    | nil =>
      simp only [fieldTokens, List.intercalate_singleton, List.length_cons] at enough ⊢
      obtain ⟨fuel, rfl⟩ := Nat.exists_eq_add_one_of_ne_zero (by omega : fuel ≠ 0)
      rw [List.cons_append, List.cons_append, fields?, first fuel _ (by dsimp only; omega)]
      rfl
    | cons next more =>
      obtain ⟨name', value'⟩ := next
      rw [fieldTokens, fieldTokens, List.intercalate_cons_cons, ← fieldTokens] at enough ⊢
      simp only [List.length_append, List.length_cons, List.length_nil] at enough
      obtain ⟨fuel, rfl⟩ := Nat.exists_eq_add_one_of_ne_zero (by omega : fuel ≠ 0)
      have further := ih later (List.cons_ne_nil _ _) (by omega : _ ≤ fuel)
      rw [List.append_assoc, List.append_assoc, List.cons_append, List.cons_append, fields?,
        first fuel _ (by dsimp only; omega), namedDocuments]
      simp [further]

/-- The entries of a list do not begin with its end. -/
theorem itemTokens_cons (item : Json) (more : List Json) : ∃ token others,
    [Token.comma].intercalate (itemTokens (item :: more)) = token :: others ∧ token ≠ .closeList := by
  obtain ⟨token, others, begins, open_, -⟩ := tokens_cons item
  cases more with
  | nil => exact ⟨token, others, by rw [itemTokens, itemTokens, List.intercalate_singleton, begins], open_⟩
  | cons next more =>
    refine ⟨token, others ++ [Token.comma] ++ [Token.comma].intercalate (itemTokens (next :: more)), ?_, open_⟩
    rw [itemTokens, itemTokens, List.intercalate_cons_cons, begins]
    rfl

theorem fieldTokens_cons (f : String × Json) (more : List (String × Json)) : ∃ others,
    [Token.comma].intercalate (fieldTokens (f :: more)) = .text (some f.1) :: others := by
  cases more with
  | nil => exact ⟨_, by rw [fieldTokens, fieldTokens, List.intercalate_singleton]⟩
  | cons next more => exact ⟨_, by rw [fieldTokens, fieldTokens, List.intercalate_cons_cons]; rfl⟩

theorem Legible.reads {j : Json} (h : Legible j) : Reads j := by
  induction h with
  | null | bool | integer | float | text =>
    intro fuel rest enough
    cases fuel with
    | zero => exact absurd enough (by simp [tokens])
    | succ fuel => rfl
  | @list items _ ih =>
    intro fuel rest enough
    rw [tokens] at enough ⊢
    simp only [List.length_append, List.length_cons, List.length_nil] at enough
    obtain ⟨fuel, rfl⟩ := Nat.exists_eq_add_one_of_ne_zero (by omega : fuel ≠ 0)
    cases items with
    | nil => rfl
    | cons item more =>
      have read := items?_tokens ih (List.cons_ne_nil _ _) (by omega : _ ≤ fuel) rest
      -- The reader looks at the next token first, and an entry does not begin with a closing sign.
      obtain ⟨token, others, begins, within⟩ := itemTokens_cons item more
      rw [begins] at read ⊢
      simp only [List.cons_append, List.append_assoc, List.nil_append] at read ⊢
      rw [value?, read]
      · rfl
      · exact fun _ same => within (List.cons.inj same).1
  | @record fields _ ih =>
    intro fuel rest enough
    rw [tokens] at enough ⊢
    simp only [List.length_append, List.length_cons, List.length_nil] at enough
    obtain ⟨fuel, rfl⟩ := Nat.exists_eq_add_one_of_ne_zero (by omega : fuel ≠ 0)
    cases fields with
    | nil => rfl
    | cons f more =>
      have read := fields?_tokens ih (List.cons_ne_nil _ _) (by omega : _ ≤ fuel) rest
      obtain ⟨others, begins⟩ := fieldTokens_cons f more
      rw [begins] at read ⊢
      simp only [List.cons_append, List.append_assoc, List.nil_append] at read ⊢
      rw [value?, read]
      · rfl
      · exact fun _ same => by cases (List.cons.inj same).1

/-- The file of a value holds the document of the value, and nothing else. -/
theorem Legible.parse?_pretty {j : Json} (h : Legible j) : Document.parse? (j.pretty "" ++ "\n") = some j.document := by
  have blank : ∀ c ∈ "".toList, isJsonBlank c = true := List.all_eq_true.mp rfl
  have ending : tokens? (.word []) ['\n'] = some [] := rfl
  have cut := h.yields_pretty blank ['\n'] (breaks_blank rfl [])
  have read := h.reads (2 * j.tokens.length) [] (Nat.le_succ _)
  rw [List.append_nil] at read
  rw [ending, Option.map_some, List.append_nil] at cut
  rw [Document.parse?, String.toList_append, show "\n".toList = ['\n'] from rfl, cut]
  simp [read]

end Rationale.Json
