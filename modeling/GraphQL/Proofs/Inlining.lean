import GraphQL.Proofs.Matching
import GraphQL.Proofs.Variables

/-!
# Literals with the values of variables in them

Variables may be replaced by their values before a literal is coerced. What was not supplied is left
out of arguments and input objects, and is null in lists. Which entries may be left out depends on
the type that the literal is coerced to.
-/

namespace GraphQL

namespace Entries

variable {α β : Type}

theorem get?_map (change : String → α → β) (entries : Entries α) (key : String) :
    get? (entries.map fun entry => (entry.1, change entry.1 entry.2)) key =
      (get? entries key).map (change key) := by
  induction entries with
  | nil => rfl
  | cons entry rest ih =>
    by_cases same : entry.1 = key
    · subst same
      simp [get?]
    · simpa [get?, same] using ih

theorem get?_filter (keep : String → Bool) (entries : Entries α) (key : String) :
    get? (entries.filter fun entry => keep entry.1) key =
      if keep key then get? entries key else none := by
  induction entries with
  | nil => simp [get?]
  | cons entry rest ih =>
    by_cases same : entry.1 = key
    · subst same
      cases kept : keep entry.1 with
      | true => simp [get?, kept]
      | false =>
        rw [kept] at ih
        simpa [get?, kept] using ih
    · cases kept : keep entry.1 with
      | true => simpa [get?, kept, same] using ih
      | false => simpa [get?, kept, same] using ih

end Entries

namespace CoercionContext

variable (context : CoercionContext)

mutual

/-- A literal with the values of variables in it, whatever it is coerced to. -/
def fill : Value → Value
  | .var name => (Entries.get? context.variableValues name).getD (.var name)
  | .list items => .list (fillItems items)
  | .tuple items => .tuple (fillItems items)
  | .map entries => .map (fillEntries entries)
  | value => value

/-- The items of a list with the values of variables in them. -/
def fillItems : List Value → List Value
  | [] => []
  | item :: rest => (if context.isUnsupplied item then .null else fill item) :: fillItems rest

/-- The entries of a mapping with the values of variables in them. -/
def fillEntries : List (String × Value) → List (String × Value)
  | [] => []
  | (key, value) :: rest => (key, fill value) :: fillEntries rest

end

/-- Whether the entry under a key is left out: it is declared, and a variable that was not
supplied. -/
def leavesOut (fields : List Argument) (entries : Entries Value) (key : String) : Bool :=
  (Member.find? fields key).isSome &&
    context.isUnsupplied ((Entries.get? entries key).getD .undefined)

mutual

/-- A literal with the values of variables in it, before it is coerced to a type. -/
def inline (ref : TypeRef) : Value → Value
  | .var name => (Entries.get? context.variableValues name).getD (.var name)
  | .list items =>
    match ref with
    | .list item _ => .list (inlineItems item items)
    | .named .. => .list (context.fillItems items)
  | .tuple items =>
    match ref with
    | .list item _ => .tuple (inlineItems item items)
    | .named .. => .tuple (context.fillItems items)
  | .map entries =>
    match context.registry.type? ref.name with
    | some (.input type) =>
      .map ((inlineEntries type.fields entries).filter fun entry =>
        !context.leavesOut type.fields entries entry.1)
    | _ => .map (context.fillEntries entries)
  | value => value

/-- The items of a list, before each is coerced to a type. -/
def inlineItems (item : TypeRef) : List Value → List Value
  | [] => []
  | value :: rest =>
    (if context.isUnsupplied value then .null else inline item value) :: inlineItems item rest

/-- The entries of a mapping, before those that are declared are coerced to their types. -/
def inlineEntries (fields : List Argument) : List (String × Value) → List (String × Value)
  | [] => []
  | (key, value) :: rest =>
    (key, match Member.find? fields key with
      | some field => inline field.type value
      | none => context.fill value) :: inlineEntries fields rest

end

/-- The literals of a selection or of an input object with the values of variables in them. -/
def inlineMembers (fields : List Argument) (entries : Entries Value) : Entries Value :=
  (context.inlineEntries fields entries).filter fun entry =>
    !context.leavesOut fields entries entry.1

/-- An item of a list, before it is coerced to a type. -/
def inlineItem (item : TypeRef) (value : Value) : Value :=
  if context.isUnsupplied value then .null else context.inline item value

/-- The value of an entry, before it is coerced to the type of the member that its key names. -/
def inlineMember (fields : List Argument) (key : String) (value : Value) : Value :=
  match Member.find? fields key with
  | some field => context.inline field.type value
  | none => context.fill value

/-- Two values of one shape, of which the parts may differ. -/
inductive SameShape : Value → Value → Prop where
  | same (value : Value) : SameShape value value
  | list (items others : List Value) : SameShape (.list items) (.list others)
  | tuple (items others : List Value) : SameShape (.tuple items) (.tuple others)
  | map (entries others : Entries Value) : SameShape (.map entries) (.map others)

namespace SameShape

variable {value other : Value} (shape : SameShape value other)

include shape

theorem isVariable : other.isVariable = value.isVariable := by
  cases shape <;> rfl

theorem isNull : other.isNull = value.isNull := by
  cases shape <;> rfl

theorem isUndefined : other.isUndefined = value.isUndefined := by
  cases shape <;> rfl

theorem text? : other.text? = value.text? := by
  cases shape <;> rfl

theorem eq_null_iff : other = .null ↔ value = .null := by
  cases shape with
  | same value => rfl
  | list | tuple | map => simp

theorem exists_map {entries : Entries Value} (mapped : other = .map entries) :
    ∃ own, value = .map own := by
  cases shape with
  | same value => exact ⟨entries, mapped⟩
  | list | tuple => cases mapped
  | map own => exact ⟨own, rfl⟩

end SameShape

variable {context} {ref item : TypeRef} {raw : Value}

theorem fillItems_eq (items : List Value) :
    context.fillItems items =
      items.map fun item => if context.isUnsupplied item then .null else context.fill item := by
  induction items with
  | nil => rfl
  | cons item rest ih => rw [fillItems, List.map_cons, ih]

theorem fillEntries_eq (entries : Entries Value) :
    context.fillEntries entries = entries.map fun entry => (entry.1, context.fill entry.2) := by
  induction entries with
  | nil => rfl
  | cons entry rest ih => rw [fillEntries, List.map_cons, ih]

theorem inlineItems_eq (items : List Value) :
    context.inlineItems item items = items.map (context.inlineItem item) := by
  induction items with
  | nil => rfl
  | cons item rest ih => rw [inlineItems, List.map_cons, ih, inlineItem]

theorem inlineEntries_eq (fields : List Argument) (entries : Entries Value) :
    context.inlineEntries fields entries =
      entries.map fun entry => (entry.1, context.inlineMember fields entry.1 entry.2) := by
  induction entries with
  | nil => rfl
  | cons entry rest ih => rw [inlineEntries, List.map_cons, ih, inlineMember]

/-- A variable that was supplied is replaced by what it stands for. -/
theorem inline_var {name : String} (supplied : context.isUnsupplied (.var name) = false) :
    context.inline ref (.var name) = context.substitute (.var name) := by
  cases found : Entries.get? context.variableValues name with
  | some value => rw [inline, substitute, found, Option.getD_some, Option.getD_some]
  | none =>
    have missing : context.variableValues.find? (·.1 == name) = none :=
      Option.map_eq_none_iff.mp found
    have unsupplied : context.isUnsupplied (.var name) = true := by
      simpa [isUnsupplied, Entries.contains] using missing
    rw [unsupplied] at supplied
    cases supplied

theorem inline_map {entries : Entries Value} {type : InputType}
    (found : context.registry.type? ref.name = some (.input type)) :
    context.inline ref (.map entries) = .map (context.inlineMembers type.fields entries) := by
  rw [inline, found, inlineMembers]

section Closed

theorem isUnsupplied_of_isClosed (closed : raw.isClosed = true) :
    context.isUnsupplied raw = false :=
  isUnsupplied_of_not_isVariable (Value.not_isVariable_of_isClosed closed)

theorem map_of_fixed {α : Type} {change : α → α} {things : List α}
    (fixed : ∀ thing ∈ things, change thing = thing) : things.map change = things := by
  have same : things.map change = things.map id := List.map_congr_left fixed
  rw [same, List.map_id]

/-- Nothing is replaced where no variable stands. -/
theorem fill_of_isClosed (closed : raw.isClosed = true) : context.fill raw = raw := by
  have inside : ∀ items : List Value, (∀ item ∈ items, item.isClosed = true) →
      (∀ item ∈ items, item.isClosed = true → context.fill item = item) →
      context.fillItems items = items := by
    intro items each ih
    rw [fillItems_eq]
    apply map_of_fixed
    intro item among
    rw [isUnsupplied_of_isClosed (each item among), if_neg Bool.false_ne_true]
    exact ih item among (each item among)
  induction raw using Value.parts_induction with
  | list items ih => rw [fill, inside items (Value.isClosed_list.mp closed) ih]
  | tuple items ih => rw [fill, inside items (Value.isClosed_tuple.mp closed) ih]
  | map entries ih =>
    rw [fill, fillEntries_eq]
    congr 1
    apply map_of_fixed
    intro entry among
    rw [ih entry among (Value.isClosed_map.mp closed entry among)]
  | simple value simple =>
    cases value with
    | var name => cases closed
    | list _ | tuple _ | map _ => cases simple
    | _ => rfl

theorem leavesOut_of_isClosed {entries : Entries Value}
    (closed : ∀ entry ∈ entries, entry.2.isClosed = true) (fields : List Argument) (key : String) :
    context.leavesOut fields entries key = false := by
  have supplied : context.isUnsupplied ((Entries.get? entries key).getD .undefined) = false := by
    cases found : Entries.get? entries key with
    | none => rfl
    | some value =>
      obtain ⟨entry, there, rfl⟩ := Option.map_eq_some_iff.mp found
      exact isUnsupplied_of_isClosed (closed entry (List.mem_of_find?_eq_some there))
  rw [leavesOut, supplied, Bool.and_false]

theorem inline_of_isClosed (ref : TypeRef) (closed : raw.isClosed = true) :
    context.inline ref raw = raw := by
  have inside : ∀ (item : TypeRef) (items : List Value), (∀ part ∈ items, part.isClosed = true) →
      (∀ part ∈ items, ∀ ref, part.isClosed = true → context.inline ref part = part) →
      context.inlineItems item items = items := by
    intro item items each ih
    rw [inlineItems_eq]
    apply map_of_fixed
    intro part among
    rw [inlineItem, isUnsupplied_of_isClosed (each part among), if_neg Bool.false_ne_true]
    exact ih part among item (each part among)
  induction raw using Value.parts_induction generalizing ref with
  | list items ih =>
    cases ref with
    | list item nonNull => rw [inline, inside item items (Value.isClosed_list.mp closed) ih]
    | named name nonNull => exact fill_of_isClosed closed
  | tuple items ih =>
    cases ref with
    | list item nonNull => rw [inline, inside item items (Value.isClosed_tuple.mp closed) ih]
    | named name nonNull => exact fill_of_isClosed closed
  | map entries ih =>
    have each := Value.isClosed_map.mp closed
    rw [inline]
    split
    · next type _ =>
      congr 1
      rw [inlineEntries_eq]
      have kept : (entries.filter fun entry => !context.leavesOut type.fields entries entry.1) =
          entries := by
        rw [List.filter_eq_self]
        intro entry _
        rw [leavesOut_of_isClosed each, Bool.not_false]
      have same : (entries.map fun entry =>
          (entry.1, context.inlineMember type.fields entry.1 entry.2)) = entries := by
        apply map_of_fixed
        intro entry among
        unfold inlineMember
        split
        · rw [ih entry among _ (each entry among)]
        · rw [fill_of_isClosed (each entry among)]
      rw [same, kept]
    · exact fill_of_isClosed closed
  | simple value simple =>
    cases value with
    | var name => cases closed
    | list _ | tuple _ | map _ => cases simple
    | _ => rfl

end Closed

section Constant

variable (constant : raw.isVariable = false)

include constant

theorem inline_of_isSimple (simple : raw.isSimple = true) (ref : TypeRef) :
    context.inline ref raw = raw := by
  cases raw with
  | var name => cases constant
  | list _ | tuple _ | map _ => cases simple
  | _ => rfl

/-- What is no variable keeps its shape: a list stays a list, a tuple a tuple and a mapping a
mapping, and everything else stays as it is. -/
theorem sameShape_inline (ref : TypeRef) : SameShape raw (context.inline ref raw) := by
  by_cases simple : raw.isSimple = true
  · rw [inline_of_isSimple constant simple]
    exact .same raw
  · cases raw with
    | map own =>
      rw [inline]
      split
      · exact .map _ _
      · exact .map _ _
    | list items => cases ref <;> exact .list _ _
    | tuple items => cases ref <;> exact .tuple _ _
    | _ => exact absurd rfl simple

/-- The items that a literal gives to a list are those that it gave before, each of them treated. -/
theorem items_inline (item : TypeRef) (nonNull : Bool) :
    items (context.inline (.list item nonNull) raw) =
      (items raw).map (context.inlineItem item) := by
  have single : context.inlineItem item raw = context.inline item raw := by
    rw [inlineItem, isUnsupplied_of_not_isVariable constant, if_neg Bool.false_ne_true]
  cases raw with
  | list items => rw [inline, inlineItems_eq, CoercionContext.items, CoercionContext.items]
  | tuple items => rw [inline, inlineItems_eq, CoercionContext.items, CoercionContext.items]
  | map entries =>
    have same : context.inline (.list item nonNull) (.map entries) =
        context.inline item (.map entries) := rfl
    have shape : SameShape _ (context.inline item _) := sameShape_inline constant item
    have alone : items (.map entries) = [.map entries] := rfl
    rw [same, alone, List.map_singleton, single]
    revert shape
    generalize context.inline item (.map entries) = result
    intro shape
    cases shape <;> rfl
  | var name => cases constant
  | _ =>
    rw [inline_of_isSimple constant rfl, CoercionContext.items, List.map_singleton, single,
      inline_of_isSimple constant rfl]
    all_goals
      intro _ same
      cases same

end Constant

section Members

variable {fields : List Argument} {entries : Entries Value} {field : Argument}

/-- The entry of a declared member after the replacement. -/
theorem get?_inlineMembers (found : Member.find? fields field.name = some field) :
    Entries.get? (context.inlineMembers fields entries) field.name =
      if context.isUnsupplied ((Entries.get? entries field.name).getD .undefined) then none
      else (Entries.get? entries field.name).map (context.inline field.type) := by
  have declared : context.leavesOut fields entries field.name =
      context.isUnsupplied ((Entries.get? entries field.name).getD .undefined) := by
    rw [leavesOut, found, Option.isSome_some, Bool.true_and]
  rw [inlineMembers, Entries.get?_filter fun key => !context.leavesOut fields entries key,
    inlineEntries_eq, Entries.get?_map (context.inlineMember fields), declared]
  have typed : context.inlineMember fields field.name = context.inline field.type := by
    funext value
    rw [inlineMember, found]
  rw [typed]
  cases context.isUnsupplied ((Entries.get? entries field.name).getD .undefined) <;> rfl

/-- Nothing is left out that is not declared, so what is unknown stays unknown. -/
theorem unknownKeys_inlineMembers (type : InputType) :
    unknownKeys type (context.inlineMembers type.fields entries) = unknownKeys type entries := by
  have keys : Entries.keys (context.inlineEntries type.fields entries) = Entries.keys entries := by
    rw [inlineEntries_eq, Entries.keys, Entries.keys, List.map_map]
    rfl
  have kept : Entries.keys (context.inlineMembers type.fields entries) =
      (Entries.keys entries).filter fun key => !context.leavesOut type.fields entries key := by
    rw [← keys, inlineMembers, Entries.keys, Entries.keys, List.filter_map]
    rfl
  rw [unknownKeys, unknownKeys, kept, List.filter_filter]
  apply List.filter_congr
  intro key _
  unfold leavesOut
  cases Member.find? type.fields key <;> simp

end Members

end CoercionContext

end GraphQL
