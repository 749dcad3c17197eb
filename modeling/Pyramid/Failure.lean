import Pyramid.Disk.Basic
import Pyramid.Fault
import Pyramid.Limit

/-!
# Failures

Every way in which an operation of the library can end without a result. A `Fault` is meant for the
user of the program (specification §7); the other causes come from the disk, from an argument that
the operation does not accept, or from a caller's own computation.
-/

namespace Pyramid

/-- The kinds of failure that a caller's computation can bring in from outside. -/
inductive OutsideKind where
  | value
  | runtime
  | key
deriving DecidableEq, Repr

/-- Why an operation has no result. -/
inductive Failure where
  | fault (f : Fault)
  /-- The disk refused a request. -/
  | disk (e : Disk.Error)
  /-- A file is not UTF-8. -/
  | encoding (f : Utf8.Fault)
  /-- A node made for one text was offered under another. -/
  | foreignNode (found wanted : Text)
  /-- A guarded solver was given an unguarded store. -/
  | unguardedStore
  /-- There is no journal level of that name. -/
  | unknownLevel (name : Text)
  /-- A letter was to be drawn from an alphabet without letters. -/
  | emptyAlphabet
  /-- A length was to be drawn from a range without numbers: from the first bound up to, but
  without, the second, if both were given. -/
  | emptyRange (bounds : Option (Int × Int))
  /-- Nothing goes by that name. -/
  | unknownName (name : Text)
  /-- A value of the wrong type. -/
  | illTyped
  /-- Something goes beyond what is read or shown. -/
  | limit (l : Limit)
  /-- A caller's own computation failed. -/
  | outside (kind : OutsideKind) (message : Text)
deriving DecidableEq, Repr

/-- The failure in words, where it has any. -/
def Failure.message : Failure → Text
  | .fault f => f.text
  | .disk e => e.message
  | .encoding f => f.message
  | .foreignNode found wanted =>
    "computed node for '" ++ found ++ "' cannot be cached as '" ++ wanted ++ "'"
  | .unguardedStore => "thread_safe=True needs a cache created with thread_safe=True"
  | .unknownLevel name => "unknown log level '" ++ name ++ "'"
  | .emptyAlphabet => "Cannot choose from an empty sequence"
  | .emptyRange none => "empty range for randrange()"
  | .emptyRange (some (low, high)) =>
    "empty range for randrange() (" ++ Text.ofInt low ++ ", " ++ Text.ofInt high ++ ", "
      ++ Text.ofInt (high - low) ++ ")"
  | .unknownName name => Text.quoted name
  | .illTyped => ""
  | .limit l => l.text
  | .outside .key message => Text.quoted message
  | .outside _ message => message

/-- A computation on a state `σ` that either gives a result or fails, and leaves a state behind in
both cases. -/
abbrev Act (σ α : Type) := ExceptT Failure (StateM σ) α

end Pyramid
