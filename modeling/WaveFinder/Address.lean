import WaveFinder.Text.Blank
import WaveFinder.Text.Lowercase
import WaveFinder.Text.Split

/-!
# Address — participants and their addresses

A participant is a lower-case address `name@domain`; the name may be empty, in which case the
participant is the one that everybody of the domain shares.  `Address.read` lower-cases a text and
then looks for the first fault, in a fixed order; `AddressFault` is the list of faults in that
order.  Names without a domain get the local one (`expand`).
-/

namespace WaveFinder

open Text

/-- Why a text is no address, in the order in which the faults are looked for. -/
inductive AddressFault where
  /-- A blank or a control character. -/
  | invalidCharacter (c : Char)
  /-- No `@`. -/
  | missingAt
  /-- More than one `@`. -/
  | repeatedAt
  /-- Nothing after the `@`. -/
  | emptyDomain
  /-- What follows the `@` is no domain. -/
  | invalidDomain (domain : String)
  deriving DecidableEq, Repr

/-- A blank or control character as it is quoted in messages: the space stands for itself, four
controls have short escapes, and the others are given by code point. -/
def quoteChar (c : Char) : String :=
  if c == ' ' then "' '"
  else if c == '\t' then "'\\t'"
  else if c == '\n' then "'\\n'"
  else if c == '\r' then "'\\r'"
  else if c == '\x00' then "'\\0'"
  else "'\\u\x7b" ++ String.ofList (Nat.toDigits 16 c.toNat) ++ "\x7d'"

namespace AddressFault

/-- The wording of a fault. -/
def message : AddressFault → String
  | invalidCharacter c => "invalid character " ++ quoteChar c ++ " in address"
  | missingAt => "missing domain prefix '@'"
  | repeatedAt => "only one '@' is allowed"
  | emptyDomain => "empty domain"
  | invalidDomain domain => "invalid domain '" ++ domain ++ "'"

end AddressFault

namespace Domain

/-- Whether a text is a label: ASCII letters, digits and hyphens, with no hyphen at either end. -/
def isLabel (cs : List Char) : Bool :=
  !cs.isEmpty && cs.head? != some '-' && cs.getLast? != some '-' &&
    cs.all fun c => isAsciiAlphanum c || c == '-'

/-- Whether a text is a domain: one or more labels with single full stops between them. -/
def isValid (cs : List Char) : Bool :=
  (pieces (· == '.') cs).all isLabel

end Domain

namespace Address

/-- Whether a character may not stand in an address. -/
def isForbidden (c : Char) : Bool :=
  isBlank c || isControl c

/-- The first fault of a lower-case text, if it has one. -/
def fault? (cs : List Char) : Option AddressFault :=
  match cs.find? isForbidden with
  | some c => some (.invalidCharacter c)
  | none =>
    match pieces (· == '@') cs with
    | [_, []] => some .emptyDomain
    | [_, domain] =>
      if Domain.isValid domain then none else some (.invalidDomain (String.ofList domain))
    | _ :: _ :: _ => some .repeatedAt
    | _ => some .missingAt

end Address

/-- The address of a participant. -/
structure Address where
  /-- The address, in lower case. -/
  text : String
  deriving DecidableEq, Repr

instance : Ord Address := ⟨fun a b => compare a.text b.text⟩

namespace Address

/-- Reads an address. -/
def read (s : String) : Except AddressFault Address :=
  let cs := lower s.toList
  match fault? cs with
  | some fault => .error fault
  | none => .ok ⟨String.ofList cs⟩

/-- Completes a participant as typed: a name without `@` belongs to the local domain, and `@` alone
is the participant that the local domain shares.  Everything else is left as it is. -/
def expand (localDomain raw : String) : String :=
  if raw = "@" then "@" ++ localDomain
  else if raw ≠ "" ∧ '@' ∉ raw.toList then raw ++ "@" ++ localDomain
  else raw

/-- Reads a participant as typed. -/
def ofTyped (localDomain raw : String) : Except AddressFault Address :=
  read (expand localDomain raw)

/-- The creator that a wave without a conversation root counts as having. -/
def unknown : Address := ⟨"unknown@example.com"⟩

/-- **An address is read as its lower case, and exactly where that has no fault.** -/
theorem read_eq_ok_iff {s : String} {a : Address} :
    read s = .ok a ↔ fault? (lower s.toList) = none ∧ a.text = String.ofList (lower s.toList) := by
  simp only [read]
  cases h : fault? (lower s.toList) with
  | some f => simp
  | none =>
    simp only [Except.ok.injEq, true_and]
    constructor
    · rintro rfl; rfl
    · intro e; cases a; simp_all

theorem read_eq_error_iff {s : String} {f : AddressFault} :
    read s = .error f ↔ fault? (lower s.toList) = some f := by
  simp only [read]
  cases h : fault? (lower s.toList) <;> simp

end Address

end WaveFinder
