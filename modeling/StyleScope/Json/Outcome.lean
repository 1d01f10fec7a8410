import StyleScope.Json.Fault

/-!
# Reading from the front of a text

What is read leaves the rest of the text. What is wrong with the text is placed at once; what is
wrong with a value is placed where the list or object around it has been closed. A place is kept as
the number of bytes behind it, so that only the whole text is needed to name it.
-/

namespace StyleScope

/-!
## Places in a text

Texts are counted in the bytes of their UTF-8 form. A place may fall inside a character.
-/

namespace Text

def byteCount (text : List Char) : Nat := text.foldr (fun c bytes => c.utf8Size + bytes) 0

/-- A line, counted from one, and the bytes of that line that come before the place. -/
structure Place where
  line : Nat
  column : Nat
deriving DecidableEq, Repr

namespace Place

def origin : Place := ⟨1, 0⟩

/-- The place that many bytes further along the text. -/
def advance (place : Place) : (bytes : Nat) → (text : List Char) → Place
  | _, [] => place
  | bytes, c :: rest =>
    if bytes < c.utf8Size then { place with column := place.column + bytes }
    else if c = '\n' then advance ⟨place.line + 1, 0⟩ (bytes - c.utf8Size) rest
    else advance { place with column := place.column + c.utf8Size } (bytes - c.utf8Size) rest

/-- The place in a text before its last `unread` bytes. -/
def before (unread : Nat) (text : List Char) : Place :=
  origin.advance (byteCount text - unread) text

/-- The place as it stands at the end of a complaint. -/
def text (place : Place) : String :=
  " at line " ++ place.line.repr ++ " column " ++ place.column.repr

end Place

end Text

/-! ## Outcomes -/

namespace Json

/-- How reading from the front of a text ends. -/
inductive Outcome (α : Type) where
  | read (value : α) (rest : List Char)
  /-- A value that is not what was wanted; its place is still open. -/
  | misfit (what : Mismatch) (rest : List Char)
  /-- A fault with the number of bytes left behind it. -/
  | fault (what : Fault) (unread : Nat)
deriving DecidableEq, Repr

variable {α β : Type}

/-- The text is wrong at this place. -/
def Malformed.here (what : Malformed) (text : List Char) : Outcome α :=
  .fault (.malformed what) (Text.byteCount text)

/-- The text is wrong in the next byte, which the place counts in; at its end there is none. -/
def Malformed.onNext (what : Malformed) (text : List Char) : Outcome α :=
  .fault (.malformed what) (Text.byteCount text - 1)

/-- The value that ends at this place is wrong. -/
def Mismatch.here (what : Mismatch) (text : List Char) : Outcome α :=
  .fault (.mismatch what) (Text.byteCount text)

namespace Outcome

def bind (o : Outcome α) (next : α → List Char → Outcome β) : Outcome β :=
  match o with
  | .read value rest => next value rest
  | .misfit what rest => .misfit what rest
  | .fault what unread => .fault what unread

def map (f : α → β) (o : Outcome α) : Outcome β := o.bind fun value rest => .read (f value) rest

/-- A check of the value that was read. -/
def check (o : Outcome α) (f : α → Except Mismatch β) : Outcome β :=
  o.bind fun value rest =>
    match f value with
    | .ok value => .read value rest
    | .error what => .misfit what rest

@[simp] theorem bind_read (value : α) (rest : List Char) (next : α → List Char → Outcome β) :
    (read value rest).bind next = next value rest := rfl

@[simp] theorem bind_misfit (what : Mismatch) (rest : List Char)
    (next : α → List Char → Outcome β) : (misfit what rest).bind next = misfit what rest := rfl

@[simp] theorem bind_fault (what : Fault) (unread : Nat) (next : α → List Char → Outcome β) :
    (fault what unread).bind next = fault what unread := rfl

@[simp] theorem map_read (f : α → β) (value : α) (rest : List Char) :
    (read value rest).map f = read (f value) rest := rfl

/-! ## How much is left -/

/-- If something was read, fewer than `n` characters are left. -/
def Below (n : Nat) (o : Outcome α) : Prop :=
  ∀ ⦃value : α⦄ ⦃rest : List Char⦄, o = .read value rest → rest.length < n

theorem below_read {value : α} {rest : List Char} {n : Nat} (h : rest.length < n) :
    (read value rest).Below n := by
  rintro _ _ ⟨rfl, rfl⟩
  exact h

@[simp] theorem below_misfit (what : Mismatch) (rest : List Char) (n : Nat) :
    (misfit what rest : Outcome α).Below n := nofun

@[simp] theorem below_fault (what : Fault) (unread n : Nat) :
    (fault what unread : Outcome α).Below n := nofun

@[simp] theorem below_here (what : Malformed) (text : List Char) (n : Nat) :
    (what.here text : Outcome α).Below n := nofun

@[simp] theorem below_onNext (what : Malformed) (text : List Char) (n : Nat) :
    (what.onNext text : Outcome α).Below n := nofun

@[simp] theorem below_mismatch (what : Mismatch) (text : List Char) (n : Nat) :
    (what.here text : Outcome α).Below n := nofun

theorem Below.mono {o : Outcome α} {m n : Nat} (h : o.Below m) (hmn : m ≤ n) : o.Below n :=
  fun _ _ heq => Nat.lt_of_lt_of_le (h heq) hmn

theorem Below.bind {o : Outcome α} {next : α → List Char → Outcome β} {m n : Nat}
    (h : o.Below m) (hnext : ∀ value rest, rest.length < m → (next value rest).Below n) :
    (o.bind next).Below n := by
  cases o with
  | read value rest => exact hnext value rest (h rfl)
  | misfit what rest => exact below_misfit ..
  | fault what unread => exact below_fault ..

theorem Below.map {o : Outcome α} {n : Nat} (f : α → β) (h : o.Below n) : (o.map f).Below n :=
  h.bind fun _ _ => below_read

theorem Below.check {o : Outcome α} {n : Nat} (f : α → Except Mismatch β) (h : o.Below n) :
    (o.check f).Below n :=
  h.bind fun value rest hlt => by
    split
    · exact below_read hlt
    · exact below_misfit ..

end Outcome

end Json

end StyleScope
