import WaveFinder.Query.Text
import WaveFinder.Wave.Basic

/-!
# Search/Criteria — what a query lets through

A query is resolved against a zone and a local domain into a window of instants and two lists of
people.  The last day of a window is covered to its end; a side that is 0 is open.  Folders, ids and
tags depend on the state of a store and are not looked at here.
-/

namespace WaveFinder

/-- Why a query cannot be run. -/
inductive Refusal where
  /-- The text is no query. -/
  | query (fault : QueryFault)
  /-- A participant, as typed, is no address once the local domain has been added. -/
  | address (raw : String) (fault : AddressFault)
  /-- No day can be told at an instant of the query. -/
  | clock (fault : UnreadableClock)
  deriving DecidableEq, Repr

/-- A window of instants, ends included; 0 on either side leaves that side open. -/
structure Window where
  /-- The time that has to lie in the window. -/
  field : DateField
  /-- The first instant. -/
  first : Int
  /-- The last instant. -/
  last : Int
  deriving DecidableEq, Repr

namespace Window

/-- Whether both sides are open. -/
def isUnbounded (w : Window) : Bool :=
  w.first == 0 && w.last == 0

/-- Whether a time lies in the window. -/
def contains (w : Window) (t : Int) : Bool :=
  (w.first == 0 || decide (w.first ≤ t)) && (w.last == 0 || decide (t ≤ w.last))

/-- The window of a query. -/
def ofQuery (clock : Clock) (q : Query) : Except UnreadableClock Window := do
  let last ← if q.has .lastDay then clock.endOfDay (q.instant .lastDay) else .ok 0
  return {
    field := q.dateField?.getD .modified
    first := q.instant .firstDay
    last := last }

end Window

/-- What an entry has to meet. -/
structure Criteria where
  /-- When. -/
  window : Window
  /-- Any of these has to be the author of the root, if there are any. -/
  creators : List Address
  /-- All of these have to take part. -/
  people : List Address
  deriving DecidableEq, Repr

/-- The people that a query names under a key, in its order; the first that is no address ends
it. -/
def Query.addresses (localDomain : String) (q : Query) (k : Key) : Except Refusal (List Address) :=
  (q.values k).mapM fun raw => (Address.ofTyped localDomain raw).mapError (Refusal.address raw)

namespace Criteria

/-- The criteria of a query. -/
def ofQuery (clock : Clock) (localDomain : String) (q : Query) : Except Refusal Criteria := do
  let window ← (Window.ofQuery clock q).mapError Refusal.clock
  let creators ← q.addresses localDomain .creator
  let people ← q.addresses localDomain .person
  return { window, creators, people }

variable {ι : Type}

/-- The time of an entry that a window applies to. -/
def timeOf (field : DateField) (s : Summary ι) : Int :=
  match field with
  | .created => s.latest Document.created
  | .modified => s.latest Document.modified

/-- Whether an entry is dated and lies in the window; an open window lets everything through. -/
def meetsWindow (c : Criteria) (s : Summary ι) : Bool :=
  c.window.isUnbounded ||
    (decide (0 ≤ timeOf c.window.field s) && c.window.contains (timeOf c.window.field s))

/-- Whether the author of the root is among the creators. -/
def meetsCreators (c : Criteria) (s : Summary ι) : Bool :=
  c.creators.isEmpty ||
    match s.rootCreator with
    | some a => c.creators.contains a
    | none => false

/-- Whether a person wrote or takes part in some document of the conversation. -/
def involves (s : Summary ι) (a : Address) : Bool :=
  s.conversation.any fun d => d.creator == a || d.participants.contains a

/-- Whether everybody who is asked for takes part. -/
def meetsPeople (c : Criteria) (s : Summary ι) : Bool :=
  c.people.all (involves s)

/-- Whether an entry meets all the criteria. -/
def meets (c : Criteria) (s : Summary ι) : Bool :=
  c.meetsWindow s && c.meetsCreators s && c.meetsPeople s

end Criteria

namespace Refusal

/-- The part of the query that is to blame. -/
def offending : Refusal → String
  | query fault => fault.offending
  | address raw _ => raw
  | clock fault => toString fault.instant

/-- The wording of a refusal. -/
def message : Refusal → String
  | query fault => fault.message
  | address raw fault => "Invalid participant address '" ++ raw ++ "': " ++ fault.message
  | clock fault => "No date for the instant " ++ toString fault.instant

end Refusal

end WaveFinder
