import WaveFinder.Address

/-!
# Wave/Basic — waves, and what a search sees of them

A wave is a thread of wavelets.  A search does not look at waves directly but at their summaries: an
id and a list of documents, each with its times, its people, and whether it belongs to the visible
conversation and is the root of it.  Any store whose entries can be summarised can be searched and
sorted; ids only have to be ordered.

The two aggregates are `latest`, the maximum of a time over the conversation, with -1 where there
is none, and `rootCreator`.
-/

namespace WaveFinder

open Text

/-- One document of a searchable entry. -/
structure Document where
  /-- When it was created, in milliseconds. -/
  created : Int
  /-- When it was last modified, in milliseconds. -/
  modified : Int
  /-- Its author. -/
  creator : Address
  /-- Whether it is part of the visible conversation. -/
  isConversational : Bool
  /-- Whether it is the root of the conversation. -/
  isRoot : Bool
  /-- The people who take part in it. -/
  participants : List Address := []
  deriving DecidableEq, Repr

/-- A searchable entry. -/
structure Summary (ι : Type) where
  /-- The id, which settles the order of entries that are otherwise alike. -/
  id : ι
  /-- The documents. -/
  documents : List Document
  deriving DecidableEq, Repr

namespace Summary

variable {ι : Type}

/-- The documents of the visible conversation. -/
def conversation (s : Summary ι) : List Document :=
  s.documents.filter Document.isConversational

/-- The latest of a time over the conversation, and -1 where there is none. -/
def latest (time : Document → Int) (s : Summary ι) : Int :=
  (s.conversation.map time).foldl max (-1)

/-- The author of the first document that is a root. -/
def rootCreator (s : Summary ι) : Option Address :=
  (s.documents.find? Document.isRoot).map Document.creator

end Summary

/-- One wavelet of a wave. -/
structure Wavelet where
  /-- The id within the wave. -/
  id : String
  /-- The author. -/
  creator : Address
  /-- When it was created, in milliseconds. -/
  created : Int
  /-- When it was last modified, in milliseconds. -/
  modified : Int
  /-- The people who take part in it. -/
  participants : List Address := []
  deriving DecidableEq, Repr

/-- A wave. -/
structure Wave where
  /-- The id. -/
  id : String
  /-- The wavelets. -/
  wavelets : List Wavelet := []
  deriving DecidableEq, Repr

namespace Wavelet

/-- The id of the wavelet that holds the conversation root. -/
def rootId : String := "conv+root"

/-- Whether an id is that of a conversational wavelet: `conv+` and at least one more character. -/
def isConversationalId (id : String) : Bool :=
  match id.toList with
  | 'c' :: 'o' :: 'n' :: 'v' :: '+' :: _ :: _ => true
  | _ => false

/-- The wavelet as a search sees it. -/
def document (w : Wavelet) : Document where
  created := w.created
  modified := w.modified
  creator := w.creator
  isConversational := isConversationalId w.id
  isRoot := w.id == rootId
  participants := w.participants

end Wavelet

namespace Wave

/-- The wave as a search sees it. -/
def summary (w : Wave) : Summary String where
  id := w.id
  documents := w.wavelets.map Wavelet.document

end Wave

end WaveFinder
