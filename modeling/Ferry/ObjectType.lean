/-!
# Types of stored objects

A registry stores objects of any type, and a typed request names the type it wants.  The names
here appear in the message of a request that found an object of another type.
-/

namespace Ferry

/-- What a stored object may be, and what a request may ask for. -/
inductive ObjectType where
  /-- A number of 64 bits. -/
  | number
  /-- A text. -/
  | text
  /-- A row of bytes. -/
  | bytes
  /-- A status, with its slots and what they own. -/
  | status
  /-- An exception, as it is stored. -/
  | exception
  /-- A reference to an exception.  Exceptions are stored without it, so a request for this type
  matches nothing. -/
  | exceptionReference
  deriving DecidableEq, Inhabited

/-- The name of a type in messages. -/
def ObjectType.name : ObjectType → String
  | number => "u64"
  | text => "alloc::string::String"
  | bytes => "alloc::vec::Vec<u8>"
  | status => "xu_status::status::Status"
  | exception => "Exception"
  | exceptionReference => "xu_bridge::exception::Exception"

end Ferry
