import Monkey.Token

/-!
# Rows of tokens and what is left of them

A reader works on the row of tokens that starts with the current one.  The end of the row stands
for as many `eof` tokens as are asked for.  Every reader answers with an `Outcome`: its result,
and the row from the token that is then the current one, which is a suffix of the row it was given.
-/

namespace Monkey

namespace Token

/-- The first token of a row, which is the current one. -/
def current (row : List Token) : Token :=
  row.headD eof

/-- The token after the current one. -/
def peek (row : List Token) : Token :=
  current row.tail

@[simp] theorem current_nil : current [] = eof := rfl

@[simp] theorem current_cons (token : Token) (row : List Token) :
    current (token :: row) = token := rfl

@[simp] theorem peek_cons (token : Token) (row : List Token) :
    peek (token :: row) = current row := rfl

end Token

/-- The result of reading something off a row of tokens, and the row that is left. -/
structure Outcome (α : Type) where
  result : Except Diagnostic α
  rest : List Token

namespace Outcome

variable {α β γ : Type}

def ok (value : α) (rest : List Token) : Outcome α := ⟨.ok value, rest⟩

def fail (cause : Cause) (literal : String) (rest : List Token) : Outcome α :=
  ⟨.error ⟨cause, literal⟩, rest⟩

def noOperand (token : Token) (rest : List Token) : Outcome α :=
  ⟨.error token.noOperand, rest⟩

def map (f : α → β) (o : Outcome α) : Outcome β :=
  match o.result with
  | .ok value => ok (f value) o.rest
  | .error d => ⟨.error d, o.rest⟩

/-- Goes on reading after a success; a failure stays as it is. -/
def andThen (o : Outcome α) (f : α → List Token → Outcome β) : Outcome β :=
  match o.result with
  | .ok value => f value o.rest
  | .error d => ⟨.error d, o.rest⟩

@[simp] theorem map_ok (f : α → β) (value : α) (rest : List Token) :
    (ok value rest).map f = ok (f value) rest := rfl

@[simp] theorem map_error (f : α → β) (d : Diagnostic) (rest : List Token) :
    map f ⟨.error d, rest⟩ = ⟨.error d, rest⟩ := rfl

@[simp] theorem andThen_ok (value : α) (rest : List Token) (f : α → List Token → Outcome β) :
    (ok value rest).andThen f = f value rest := rfl

@[simp] theorem andThen_error (d : Diagnostic) (rest : List Token)
    (f : α → List Token → Outcome β) :
    andThen ⟨.error d, rest⟩ f = ⟨.error d, rest⟩ := rfl

theorem rest_map (f : α → β) (o : Outcome α) : (o.map f).rest = o.rest := by
  unfold map
  split <;> rfl

theorem rest_andThen (o : Outcome α) {f : α → List Token → Outcome β}
    (h : ∀ value rest, (f value rest).rest <:+ rest) : (o.andThen f).rest <:+ o.rest := by
  unfold andThen
  split
  · exact h _ _
  · exact List.suffix_rfl

end Outcome

namespace Token

/-- Moves on to the next token if it is of the kind that is expected. -/
def expectPeek (kind : Kind) (row : List Token) : Outcome Token :=
  if (peek row).kind = kind then .ok (peek row) row.tail
  else .fail (.unexpectedToken kind (peek row).kind) (peek row).literal row

theorem rest_expectPeek (kind : Kind) (row : List Token) : (expectPeek kind row).rest <:+ row := by
  unfold expectPeek
  split
  · exact List.tail_suffix row
  · exact List.suffix_rfl

/-- Moves on to a semicolon that comes next. -/
def skipSemicolon (row : List Token) : List Token :=
  if (peek row).kind = .semicolon then row.tail else row

theorem skipSemicolon_suffix (row : List Token) : skipSemicolon row <:+ row := by
  unfold skipSemicolon
  split
  · exact List.tail_suffix row
  · exact List.suffix_rfl

end Token

end Monkey
