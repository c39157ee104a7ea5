import SchemaPlan.Json.Reader
import SchemaPlan.Proofs.Json.Lexing

/-!
# Printed values read back

The text of a value whose numbers are integers is read as the document that writes the value
(`Document.ofText?_compress`). The reader is followed through the text from any state that awaits a
value: behind the text it is where it would be had the value been entered at once
(`ReadState.read?_print`). A string reads back whatever characters stand in it
(`Document.ofText?_quote`).
-/

set_option autoImplicit false
set_option relaxedAutoImplicit false

namespace SchemaPlan.Json

namespace Value

mutual

/-- Whether no number in the value is a real. -/
def hasOnlyIntegers : Value → Bool
  | .null | .bool _ | .string _ | .number (.integer _ _) => true
  | .number (.real _ _) => false
  | .array items => itemsHaveOnlyIntegers items
  | .object members => membersHaveOnlyIntegers members

/-- Whether no number in the items is a real. -/
def itemsHaveOnlyIntegers : List Value → Bool
  | [] => true
  | item :: rest => item.hasOnlyIntegers && itemsHaveOnlyIntegers rest

/-- Whether no number in the values of the members is a real. -/
def membersHaveOnlyIntegers : List (String × Value) → Bool
  | [] => true
  | (_, value) :: rest => value.hasOnlyIntegers && membersHaveOnlyIntegers rest

end

end Value

namespace ReadState

/-! ### Reading token by token -/

/-- Reads the tokens of a text. -/
def read? (state : ReadState) (chars : List Char) : Option ReadState := (lex chars).bind state.run

/-- Reading a text is a step with its first token and then reading the rest. -/
theorem read?_of_lex {state next : ReadState} {chars rest : List Char} {token : Token}
    (hlex : lex chars = (lex rest).map (token :: ·)) (hstep : state.step token = some next) :
    state.read? chars = next.read? rest := by
  rw [read?, hlex, read?]
  cases lex rest with
  | none => rfl
  | some tokens => rw [Option.map_some, Option.bind_some, Option.bind_some, run, hstep]

/-- A token of one character, such as a bracket, is read. -/
theorem read?_symbol {state next : ReadState} {c : Char} {token : Token} {rest : List Char}
    (hspace : isSpace c = false) (htoken : scanToken c rest = some (token, rest))
    (hstep : state.step token = some next) : state.read? (c :: rest) = next.read? rest :=
  read?_of_lex (lex_cons_of_scanToken hspace htoken) hstep

/-- A value comes next, to be entered in the innermost frame of the stack. -/
def Awaits (state : ReadState) (stack : List Frame) : Prop :=
  ∀ token, token ≠ .closeArray → state.step token = start stack token

/-- At the start of a value, any value can come next. -/
theorem awaits_atValue (stack : List Frame) : (atValue stack).Awaits stack := fun _ _ ↦ rfl

/-- Behind an opening bracket, a value comes next as an item. -/
theorem awaits_atFirstItem (stack : List Frame) :
    (atFirstItem stack).Awaits (.array [] :: stack) := by
  intro token htoken
  cases token <;> first | rfl | exact absurd rfl htoken

/-! ### Reading what is printed -/

theorem endsNumber_printMoreItems (items : List Value) (rest : List Char) :
    EndsNumber (Value.printMoreItems items ++ rest) := by
  cases items <;> exact endsNumber_cons (by decide) _

theorem endsNumber_printMoreMembers (members : List (String × Value)) (rest : List Char) :
    EndsNumber (Value.printMoreMembers members ++ rest) := by
  match members with
  | [] | (_, _) :: _ => exact endsNumber_cons (by decide) _

/-- A name and its colon are read, and then the value of the member comes next. -/
theorem read?_name {state : ReadState} {members : Members} {name : String} {stack : List Frame}
    (hstep : state.step (.string (some name)) = some (atColon members (some name) stack))
    (chars : List Char) :
    state.read? (quote name ++ ':' :: chars) =
      (atValue (.object members (some name) :: stack)).read? chars :=
  (read?_of_lex (lex_quote name (':' :: chars)) hstep).trans (read?_symbol rfl rfl rfl)

open Document in
mutual

/-- Where a value is awaited, one that is printed is read back. -/
theorem read?_print {value : Value} (h : value.hasOnlyIntegers) {state : ReadState}
    {stack : List Frame} (hstate : state.Awaits stack) {rest : List Char}
    (hrest : EndsNumber rest) :
    state.read? (value.print ++ rest) = (complete (ofValue value) stack).read? rest := by
  match value, h with
  | .null, _ => exact read?_of_lex (lex_cons_of_scanToken rfl rfl) (hstate .null (by nofun))
  | .bool true, _ =>
    exact read?_of_lex (lex_cons_of_scanToken rfl rfl) (hstate (.bool true) (by nofun))
  | .bool false, _ =>
    exact read?_of_lex (lex_cons_of_scanToken rfl rfl) (hstate (.bool false) (by nofun))
  | .number (.integer value hword), _ =>
    exact read?_of_lex (lex_render_integer hword hrest) (hstate (.number _) (by nofun))
  | .string text, _ => exact read?_of_lex (lex_quote text rest) (hstate (.string _) (by nofun))
  | .array items, h =>
    have hopen : state.step .openArray = some (atFirstItem stack) := hstate _ (by nofun)
    exact (read?_symbol rfl rfl hopen).trans (read?_printItems h stack rest)
  | .object members, h =>
    have hopen : state.step .openObject = some (atFirstName stack) := hstate _ (by nofun)
    exact (read?_symbol rfl rfl hopen).trans (read?_printMembers h stack rest)

/-- Items that are printed are read back as an array. -/
theorem read?_printItems {items : List Value} (h : Value.itemsHaveOnlyIntegers items)
    (stack : List Frame) (rest : List Char) :
    (atFirstItem stack).read? (Value.printItems items ++ rest) =
      (complete (.array (ofItems items)) stack).read? rest := by
  match items, h with
  | [], _ => exact read?_symbol rfl rfl rfl
  | item :: others, h =>
    obtain ⟨hitem, hothers⟩ := Bool.and_eq_true_iff.1 h
    rw [Value.printItems, List.append_assoc]
    have hend := endsNumber_printMoreItems others rest
    exact (read?_print hitem (awaits_atFirstItem stack) hend).trans
      (read?_printMoreItems hothers [ofValue item] stack rest)

/-- Further items that are printed are read back behind those in front of them. -/
theorem read?_printMoreItems {items : List Value} (h : Value.itemsHaveOnlyIntegers items)
    (before : List Document) (stack : List Frame) (rest : List Char) :
    (afterItem before stack).read? (Value.printMoreItems items ++ rest) =
      (complete (.array (before.reverse ++ ofItems items)) stack).read? rest := by
  match items, h with
  | [], _ =>
    rw [ofItems, List.append_nil]
    exact read?_symbol rfl rfl rfl
  | item :: others, h =>
    obtain ⟨hitem, hothers⟩ := Bool.and_eq_true_iff.1 h
    have hcomma : (afterItem before stack).read? (Value.printMoreItems (item :: others) ++ rest) =
        (atValue (.array before :: stack)).read?
          ((item.print ++ Value.printMoreItems others) ++ rest) := read?_symbol rfl rfl rfl
    rw [hcomma, List.append_assoc,
      read?_print hitem (awaits_atValue _) (endsNumber_printMoreItems others rest), complete,
      read?_printMoreItems hothers, ofItems, List.reverse_cons, List.append_assoc,
      List.singleton_append]

/-- Members that are printed are read back as an object. -/
theorem read?_printMembers {members : List (String × Value)}
    (h : Value.membersHaveOnlyIntegers members) (stack : List Frame) (rest : List Char) :
    (atFirstName stack).read? (Value.printMembers members ++ rest) =
      (complete (.object (Document.ofMembers members)) stack).read? rest := by
  match members, h with
  | [], _ => exact read?_symbol rfl rfl rfl
  | (name, value) :: others, h =>
    obtain ⟨hvalue, hothers⟩ := Bool.and_eq_true_iff.1 h
    rw [Value.printMembers, List.append_assoc, List.cons_append, read?_name rfl,
      List.append_assoc,
      read?_print hvalue (awaits_atValue _) (endsNumber_printMoreMembers others rest)]
    exact read?_printMoreMembers hothers [(some name, ofValue value)] stack rest

/-- Further members that are printed are read back behind those in front of them. -/
theorem read?_printMoreMembers {members : List (String × Value)}
    (h : Value.membersHaveOnlyIntegers members) (before : Members) (stack : List Frame)
    (rest : List Char) :
    (afterMember before stack).read? (Value.printMoreMembers members ++ rest) =
      (complete (.object (before.reverse ++ Document.ofMembers members)) stack).read? rest := by
  match members, h with
  | [], _ =>
    rw [Document.ofMembers, List.append_nil]
    exact read?_symbol rfl rfl rfl
  | (name, value) :: others, h =>
    obtain ⟨hvalue, hothers⟩ := Bool.and_eq_true_iff.1 h
    have hcomma : (afterMember before stack).read?
        (Value.printMoreMembers ((name, value) :: others) ++ rest) =
          (atName before stack).read?
            (quote name ++ ':' :: (value.print ++ Value.printMoreMembers others) ++ rest) :=
      read?_symbol rfl rfl rfl
    rw [hcomma, List.append_assoc, List.cons_append, read?_name rfl, List.append_assoc,
      read?_print hvalue (awaits_atValue _) (endsNumber_printMoreMembers others rest), complete,
      read?_printMoreMembers hothers, Document.ofMembers, List.reverse_cons, List.append_assoc,
      List.singleton_append]

end

/-- A text that is read to its end is the document that is left. -/
theorem ofText?_of_read? {chars : List Char} {document : Document}
    (h : (atValue []).read? chars = some (.done document)) :
    Document.ofText? (String.ofList chars) = some document := by
  obtain ⟨tokens, hlex, hrun⟩ := Option.bind_eq_some_iff.1 h
  rw [Document.ofText?, String.toList_ofList, hlex]
  change Document.ofTokens? tokens = some document
  rw [Document.ofTokens?, hrun]

theorem read?_nil (state : ReadState) : state.read? [] = some state := by
  rw [read?, lex, Option.bind_some, run]

end ReadState

/-! ### Whole texts -/

namespace Document

/-- A quoted text is one string and writes that text. -/
theorem ofText?_quote (text : String) :
    ofText? (String.ofList (quote text)) = some (.string (some text)) := by
  refine ReadState.ofText?_of_read? ?_
  have hread := ReadState.read?_of_lex (lex_quote text []) (rfl :
    (ReadState.atValue []).step (.string (some text)) = some (.done (.string (some text))))
  rwa [List.append_nil, ReadState.read?_nil] at hread

/-- The text of a value without reals writes the value. -/
theorem ofText?_compress {value : Value} (h : value.hasOnlyIntegers) :
    ofText? value.compress = some (ofValue value) := by
  refine ReadState.ofText?_of_read? ?_
  have hread := ReadState.read?_print h (ReadState.awaits_atValue []) endsNumber_nil
  rwa [List.append_nil, ReadState.read?_nil] at hread

end Document

end SchemaPlan.Json
