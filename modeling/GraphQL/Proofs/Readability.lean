import GraphQL.Proofs.JsonText
import Mathlib

/-!
# Literals can be read back

The literals of the query language that introspection shows: words, numbers, texts, lists and
objects. Which literal stands at the beginning of a text, and where it ends, can be told from the
characters: the first of them tells the kind, words and numbers end where a character of another
kind follows, and brackets and commas are no part of them.
-/

namespace GraphQL

/-- A literal as introspection shows it. -/
inductive Literal where
  | word (name : String)
  | number (n : Int)
  | text (content : String)
  | list (items : List Literal)
  | object (fields : List (String × Literal))

/-- The kinds of literals. -/
inductive LiteralKind where
  | word
  | number
  | text
  | list
  | object

/-- Whether a character may stand in a name. -/
def isNameChar (c : Char) : Bool :=
  c.isAlphanum || c == '_'

/-- A name of the query language: letters, digits and underscores, and no digit at the beginning. -/
def IsName (name : String) : Prop :=
  (∀ c ∈ name.toList, isNameChar c = true) ∧
    ∃ first rest, name.toList = first :: rest ∧ first.isDigit = false

instance : DecidablePred IsName := fun name =>
  decidable_of_iff
    (name.toList.all isNameChar = true ∧ name.toList.head?.any (!·.isDigit) = true) (by
      cases letters : name.toList <;> simp [IsName, letters])

/-- Whether a character may stand in a number. -/
def isNumberChar (c : Char) : Bool :=
  c.isDigit || c == '-'

/-- What follows a literal, if anything does: a comma or a closing bracket. -/
def Delimits (rest : List Char) : Prop :=
  ∀ c ∈ rest.head?, c = ',' ∨ c = ']' ∨ c = '\x7d'

namespace LiteralKind

/-- The kind of the literals that begin with a character. -/
def ofChar (c : Char) : LiteralKind :=
  if c = '"' then .text
  else if c = '[' then .list
  else if c = '\x7b' then .object
  else if isNumberChar c then .number
  else .word

theorem ofChar_of_number {c : Char} (digit : isNumberChar c = true) : ofChar c = .number := by
  have other : c ≠ '"' ∧ c ≠ '[' ∧ c ≠ '\x7b' := by
    refine ⟨?_, ?_, ?_⟩ <;> rintro rfl <;> revert digit <;> decide
  simp only [ofChar, other, if_false, digit, if_true]

theorem ofChar_of_name {c : Char} (letter : isNameChar c = true) (first : c.isDigit = false) :
    ofChar c = .word := by
  have other : c ≠ '"' ∧ c ≠ '[' ∧ c ≠ '\x7b' ∧ c ≠ '-' := by
    refine ⟨?_, ?_, ?_, ?_⟩ <;> rintro rfl <;> revert letter <;> decide
  simp [ofChar, isNumberChar, other, first]

end LiteralKind

/-- A run of characters of one kind ends where a character of another kind follows. -/
theorem eq_of_runs {test : Char → Bool} {run other rest more : List Char}
    (all : ∀ c ∈ run, test c = true) (each : ∀ c ∈ other, test c = true)
    (ends : ∀ c ∈ rest.head?, test c = false) (stops : ∀ c ∈ more.head?, test c = false)
    (same : run ++ rest = other ++ more) : run = other ∧ rest = more := by
  have nothing : ∀ {left : List Char}, (∀ c ∈ left.head?, test c = false) →
      left.takeWhile test = [] := by
    intro left ends
    cases left with
    | nil => rfl
    | cons c left => rw [List.takeWhile_cons_of_neg (by simp [ends c rfl])]
  have taken := congrArg (List.takeWhile test) same
  rw [List.takeWhile_append_of_pos all, List.takeWhile_append_of_pos each, nothing ends,
    nothing stops, List.append_nil, List.append_nil] at taken
  subst taken
  exact ⟨rfl, List.append_cancel_left same⟩

theorem Delimits.not_test {test : Char → Bool} {rest : List Char} (delimits : Delimits rest)
    (marks : test ',' = false ∧ test ']' = false ∧ test '\x7d' = false) :
    ∀ c ∈ rest.head?, test c = false := by
  intro c first
  rcases delimits c first with rfl | rfl | rfl
  exacts [marks.1, marks.2.1, marks.2.2]

/-- Parts after the first, each with a comma before it. -/
def followed (parts : List (List Char)) : List Char :=
  parts.flatMap fun part => ',' :: ' ' :: part

theorem intercalate_cons (part : List Char) (parts : List (List Char)) :
    [',', ' '].intercalate (part :: parts) = part ++ followed parts := by
  induction parts generalizing part with
  | nil => rw [List.intercalate_singleton, followed, List.flatMap_nil, List.append_nil]
  | cons next parts ih =>
    rw [List.intercalate_cons_cons, ih, followed, followed, List.flatMap_cons, List.append_assoc]
    rfl

section Separated

variable {α : Type} {write : α → List Char}

/-- Which of two things is written at the beginning of a text, and where it ends, can be told from
the text. -/
def Distinguished (write : α → List Char) (one other : α) : Prop :=
  ∀ {rest more}, Delimits rest → Delimits more → write one ++ rest = write other ++ more →
    one = other ∧ rest = more

variable {close : Char} (closes : close = ']' ∨ close = '\x7d') {items others : List α}
  (each : ∀ item ∈ items, ∀ other ∈ others, Distinguished write item other)
  {rest more : List Char}

include closes

theorem delimits_followed (items : List α) (rest : List Char) :
    Delimits (followed (items.map write) ++ close :: rest) := by
  intro c first
  cases items with
  | nil =>
    cases first
    exact Or.inr closes
  | cons item items =>
    cases first
    exact Or.inl rfl

include each

/-- Parts after the first can be told from the text, and so can the closing bracket. -/
theorem eq_of_followed (same : followed (items.map write) ++ close :: rest =
    followed (others.map write) ++ close :: more) : items = others ∧ rest = more := by
  have comma : close ≠ ',' := by
    rcases closes with rfl | rfl <;> decide
  induction items generalizing others with
  | nil =>
    cases others with
    | nil =>
      injection same with _ rests
      exact ⟨rfl, rests⟩
    | cons other others =>
      injection same with first
      exact absurd first comma
  | cons item items ih =>
    cases others with
    | nil =>
      injection same with first
      exact absurd first.symm comma
    | cons other others =>
      have parts : write item ++ (followed (items.map write) ++ close :: rest) =
          write other ++ (followed (others.map write) ++ close :: more) := by
        rw [← List.append_assoc, ← List.append_assoc]
        injection same with _ same
        injection same
      obtain ⟨rfl, tails⟩ := each item List.mem_cons_self other List.mem_cons_self
        (delimits_followed closes items rest) (delimits_followed closes others more) parts
      obtain ⟨rfl, rests⟩ := ih (fun part among next later =>
        each part (List.mem_cons_of_mem _ among) next (List.mem_cons_of_mem _ later)) tails
      exact ⟨rfl, rests⟩

/-- So can all parts, if none of them is written like the closing bracket. -/
theorem eq_of_intercalate
    (starts : ∀ item ∈ items ++ others, ∃ first tail, write item = first :: tail ∧ first ≠ close)
    (same : [',', ' '].intercalate (items.map write) ++ close :: rest =
      [',', ' '].intercalate (others.map write) ++ close :: more) :
    items = others ∧ rest = more := by
  cases items with
  | nil =>
    cases others with
    | nil => exact eq_of_followed closes each same
    | cons other others =>
      obtain ⟨first, tail, begins, differs⟩ := starts other List.mem_cons_self
      rw [List.map_cons, intercalate_cons, begins] at same
      injection same with first
      exact absurd first.symm differs
  | cons item items =>
    cases others with
    | nil =>
      obtain ⟨first, tail, begins, differs⟩ := starts item List.mem_cons_self
      rw [List.map_cons, intercalate_cons, begins] at same
      injection same with first
      exact absurd first differs
    | cons other others =>
      refine eq_of_followed closes each ?_
      rw [List.map_cons, List.map_cons, intercalate_cons, intercalate_cons] at same
      exact congrArg (',' :: ' ' :: ·) same

end Separated

namespace Literal

mutual

/-- The characters of a literal. -/
def chars : Literal → List Char
  | word name => name.toList
  | number n => n.repr.toList
  | text content => '"' :: Text.jsonBody content.toList
  | list items => '[' :: ([',', ' '].intercalate (itemChars items) ++ [']'])
  | object fields => '{' :: ([',', ' '].intercalate (fieldChars fields) ++ ['}'])

/-- The characters of each item. -/
def itemChars : List Literal → List (List Char)
  | [] => []
  | item :: rest => chars item :: itemChars rest

/-- The characters of each field: its name and its value. -/
def fieldChars : List (String × Literal) → List (List Char)
  | [] => []
  | (name, value) :: rest => (name.toList ++ ':' :: ' ' :: chars value) :: fieldChars rest

end

/-- The characters of a field. -/
def writeField (field : String × Literal) : List Char :=
  field.1.toList ++ ':' :: ' ' :: field.2.chars

theorem itemChars_eq (items : List Literal) : itemChars items = items.map chars := by
  induction items with
  | nil => rfl
  | cons item rest ih => rw [itemChars, ih, List.map_cons]

theorem fieldChars_eq (fields : List (String × Literal)) :
    fieldChars fields = fields.map writeField := by
  induction fields with
  | nil => rfl
  | cons field rest ih => rw [fieldChars, ih, List.map_cons, writeField]

/-- The words and the names of fields in a literal are names of the query language. -/
inductive Proper : Literal → Prop where
  | word {name : String} : IsName name → Proper (.word name)
  | number (n : Int) : Proper (.number n)
  | text (content : String) : Proper (.text content)
  | list {items : List Literal} : (∀ item ∈ items, Proper item) → Proper (.list items)
  | object {fields : List (String × Literal)} :
      (∀ field ∈ fields, IsName field.1) → (∀ field ∈ fields, Proper field.2) →
      Proper (.object fields)

/-- The kind of a literal. -/
def kind : Literal → LiteralKind
  | word _ => .word
  | number _ => .number
  | text _ => .text
  | list _ => .list
  | object _ => .object

/-- A number is written with digits and perhaps a sign. -/
theorem isNumberChar_of_mem_repr {n : Int} : ∀ c ∈ n.repr.toList, isNumberChar c = true := by
  have digits : ∀ {m : Nat}, ∀ c ∈ m.repr.toList, isNumberChar c = true := by
    intro m c among
    rw [Nat.repr_eq_ofList_toDigits, String.toList_ofList] at among
    rw [isNumberChar, Nat.isDigit_of_mem_toDigits (by decide) (by decide) among, Bool.true_or]
  intro c among
  rw [Int.repr_eq_if] at among
  split at among
  · exact digits c among
  · rw [String.toList_append] at among
    rcases List.mem_append.mp among with sign | digit
    · rw [List.mem_singleton.mp sign]
      rfl
    · exact digits c digit

theorem repr_ne_nil (n : Int) : n.repr.toList ≠ [] := by
  rw [Int.repr_eq_if]
  split
  · rw [Nat.repr_eq_ofList_toDigits, String.toList_ofList]
    exact Nat.toDigits_ne_nil
  · rw [String.toList_append]
    exact List.cons_ne_nil _ _

/-- A character that no closing bracket is. -/
def Opens (c : Char) : Prop :=
  c ≠ ']' ∧ c ≠ '\x7d'

theorem opens_of_test {test : Char → Bool} {c : Char} (passes : test c = true)
    (brackets : test ']' = false ∧ test '\x7d' = false) : Opens c := by
  refine ⟨?_, ?_⟩
  · rintro rfl
    exact Bool.false_ne_true (brackets.1.symm.trans passes)
  · rintro rfl
    exact Bool.false_ne_true (brackets.2.symm.trans passes)

/-- The first character of a literal tells its kind. -/
theorem Proper.exists_cons {literal : Literal} (proper : literal.Proper) :
    ∃ first tail, literal.chars = first :: tail ∧ Opens first ∧
      LiteralKind.ofChar first = literal.kind := by
  cases proper with
  | @word name named =>
    obtain ⟨letters, first, rest, same, start⟩ := named
    have letter : isNameChar first = true := letters first (by rw [same]; exact List.mem_cons_self)
    exact ⟨first, rest, by rw [chars, same], opens_of_test letter (by decide),
      LiteralKind.ofChar_of_name letter start⟩
  | number n =>
    obtain ⟨first, rest, same⟩ := List.exists_cons_of_ne_nil (repr_ne_nil n)
    have digit : isNumberChar first = true :=
      isNumberChar_of_mem_repr first (by rw [same]; exact List.mem_cons_self)
    exact ⟨first, rest, by rw [chars, same], opens_of_test digit (by decide),
      LiteralKind.ofChar_of_number digit⟩
  | text => exact ⟨'"', _, by rw [chars], ⟨by decide, by decide⟩, rfl⟩
  | list => exact ⟨'[', _, by rw [chars], ⟨by decide, by decide⟩, rfl⟩
  | object => exact ⟨'\x7b', _, by rw [chars], ⟨by decide, by decide⟩, rfl⟩

/-- Literals of one text are of one kind. -/
theorem kind_eq_of_chars {one other : Literal} (proper : one.Proper) (likewise : other.Proper)
    {rest more : List Char} (same : one.chars ++ rest = other.chars ++ more) :
    one.kind = other.kind := by
  obtain ⟨first, tail, begins, _, kind⟩ := proper.exists_cons
  obtain ⟨start, others, starts, _, otherKind⟩ := likewise.exists_cons
  rw [begins, starts] at same
  injection same with same
  rw [← kind, ← otherKind, same]

theorem eq_of_names {name other : String} (named : IsName name) (likewise : IsName other)
    {rest more : List Char} (ends : ∀ c ∈ rest.head?, isNameChar c = false)
    (stops : ∀ c ∈ more.head?, isNameChar c = false)
    (same : name.toList ++ rest = other.toList ++ more) : name = other ∧ rest = more := by
  obtain ⟨names, rests⟩ := eq_of_runs named.1 likewise.1 ends stops same
  exact ⟨String.toList_inj.mp names, rests⟩

/-- A field can be told from the text if its value can. -/
theorem distinguished_writeField {one other : String × Literal} (named : IsName one.1)
    (likewise : IsName other.1) (values : Distinguished chars one.2 other.2) :
    Distinguished writeField one other := by
  intro rest more delimits ends same
  have colon : ∀ {left : List Char}, ∀ c ∈ (':' :: left).head?, isNameChar c = false := by
    intro left c first
    cases first
    rfl
  simp only [writeField, List.append_assoc, List.cons_append] at same
  obtain ⟨names, tails⟩ := eq_of_names named likewise colon colon same
  injection tails with _ tails
  injection tails with _ tails
  obtain ⟨literals, rests⟩ := values delimits ends tails
  exact ⟨Prod.ext names literals, rests⟩

theorem exists_writeField {field : String × Literal} (named : IsName field.1) :
    ∃ first tail, writeField field = first :: tail ∧ Opens first := by
  obtain ⟨letters, first, rest, same, _⟩ := named
  refine ⟨first, _, by rw [writeField, same, List.cons_append], ?_⟩
  refine opens_of_test (letters first ?_) (by decide)
  rw [same]
  exact List.mem_cons_self

/-- Which literal stands at the beginning of a text and where it ends can be told from the text. -/
theorem Proper.distinguished {one : Literal} (proper : one.Proper) :
    ∀ other : Literal, other.Proper → Distinguished chars one other := by
  induction proper with
  | @word name named =>
    intro other likewise rest more delimits ends same
    have kinds := kind_eq_of_chars (.word named) likewise same
    cases likewise with
    | number | text | list | object => cases kinds
    | word otherwise =>
      rw [chars, chars] at same
      obtain ⟨rfl, rests⟩ := eq_of_names named otherwise (delimits.not_test (by decide))
        (ends.not_test (by decide)) same
      exact ⟨rfl, rests⟩
  | number n =>
    intro other likewise rest more delimits ends same
    have kinds := kind_eq_of_chars (.number n) likewise same
    cases likewise with
    | word | text | list | object => cases kinds
    | number m =>
      rw [chars, chars] at same
      obtain ⟨numerals, rests⟩ := eq_of_runs isNumberChar_of_mem_repr isNumberChar_of_mem_repr
        (delimits.not_test (by decide)) (ends.not_test (by decide)) same
      rw [Int.repr_inj.mp (String.toList_inj.mp numerals)]
      exact ⟨rfl, rests⟩
  | text content =>
    intro other likewise rest more delimits ends same
    have kinds := kind_eq_of_chars (.text content) likewise same
    cases likewise with
    | word | number | list | object => cases kinds
    | text content =>
      rw [chars, chars] at same
      injection same with _ bodies
      obtain ⟨texts, rests⟩ := Text.eq_of_jsonBody bodies
      rw [String.toList_inj.mp texts]
      exact ⟨rfl, rests⟩
  | @list items proper ih =>
    intro other likewise rest more delimits ends same
    have kinds := kind_eq_of_chars (.list proper) likewise same
    cases likewise with
    | word | number | text | object => cases kinds
    | @list others otherwise =>
      rw [chars, chars, itemChars_eq, itemChars_eq, List.cons_append, List.cons_append,
        List.append_assoc, List.append_assoc] at same
      injection same with _ bodies
      obtain ⟨rfl, rests⟩ := eq_of_intercalate (Or.inl rfl)
        (fun item among other there => ih item among other (otherwise other there))
        (fun item among => by
          have inside : item.Proper :=
            (List.mem_append.mp among).elim (proper item) (otherwise item)
          obtain ⟨first, tail, begins, opens, _⟩ := inside.exists_cons
          exact ⟨first, tail, begins, opens.1⟩)
        bodies
      exact ⟨rfl, rests⟩
  | @object fields named proper ih =>
    intro other likewise rest more delimits ends same
    have kinds := kind_eq_of_chars (.object named proper) likewise same
    cases likewise with
    | word | number | text | list => cases kinds
    | @object others names otherwise =>
      rw [chars, chars, fieldChars_eq, fieldChars_eq, List.cons_append, List.cons_append,
        List.append_assoc, List.append_assoc] at same
      injection same with _ bodies
      obtain ⟨rfl, rests⟩ := eq_of_intercalate (Or.inr rfl)
        (fun field among other there => distinguished_writeField (named field among)
          (names other there) (ih field among other.2 (otherwise other there)))
        (fun field among => by
          obtain ⟨first, tail, begins, opens⟩ := exists_writeField
            ((List.mem_append.mp among).elim (named field) (names field))
          exact ⟨first, tail, begins, opens.2⟩)
        bodies
      exact ⟨rfl, rests⟩

/-- Literals that are written alike are the same. -/
theorem Proper.eq_of_chars {one other : Literal} (proper : one.Proper) (likewise : other.Proper)
    (same : one.chars = other.chars) : one = other := by
  have nothing : Delimits [] := nofun
  have apart := proper.distinguished other likewise nothing nothing
  rw [List.append_nil, List.append_nil] at apart
  exact (apart same).1

end Literal

end GraphQL
