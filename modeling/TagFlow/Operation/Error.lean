import TagFlow.Value.Raw

/-!
# How an operation can fail

An operation either refuses its arguments with an error, or it *panics*: it breaks off without an
answer, with a message at most. Both are outcomes like any other here; what becomes of a panic is
for the caller to say.
-/

namespace TagFlow

/-- Why a number does not do as an argument. -/
inductive NumberFault where
  /-- Not a count or an index. -/
  | notIndex (n : Float)
  /-- The repeated text would be too long. -/
  | repeatTooLong (bytes count limit : Nat)
  /-- Any reason of an operation beyond the built-in ones. -/
  | other (reason : String)

namespace NumberFault

def message : NumberFault → String
  | notIndex n => "expected a non-negative integer, got " ++ Decimal.numberText n
  | repeatTooLong bytes count limit =>
    "repeating " ++ toString bytes ++ " bytes " ++ toString count ++ " times exceeds " ++
      toString limit ++ " bytes"
  | other reason => reason

end NumberFault

/-- Why an operation or adapter has no result. -/
inductive OpError where
  | typeMismatch (operation : String) (expected got : BaseType)
  | indexOutOfBounds (operation : String) (index : Float) (length : Nat)
  | invalidNumber (operation : String) (fault : NumberFault)
  | unknownOperation (name : String)
  | unknownAdapter (name : String)
  /-- A panic that was caught. -/
  | panicked (message : String)

namespace OpError

/-- A name between grave accents. -/
def named (name : String) : String := "`" ++ name ++ "`"

/-- The name of the kind of error. -/
def name : OpError → String
  | typeMismatch .. => "TypeMismatch"
  | indexOutOfBounds .. => "IndexOutOfBounds"
  | invalidNumber .. => "InvalidNumber"
  | unknownOperation .. => "UnknownOperation"
  | unknownAdapter .. => "UnknownAdapter"
  | panicked .. => "Panicked"

def message : OpError → String
  | typeMismatch operation expected got =>
    named operation ++ " expected " ++ expected.name ++ ", got " ++ got.name
  | indexOutOfBounds operation index length =>
    named operation ++ ": index " ++ Decimal.numberText index ++ " out of bounds for length " ++
      toString length
  | invalidNumber operation fault => named operation ++ ": " ++ fault.message
  | unknownOperation name => "unknown operation " ++ named name
  | unknownAdapter name => "unknown adapter " ++ named name
  | panicked message => "operation panicked: " ++ message

end OpError

/-- How running an operation can end without a value. -/
inductive Fault where
  | error (e : OpError)
  | panic (message : String)

end TagFlow
