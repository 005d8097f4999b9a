/-!
# Error numbers

The numbers by which the kernel names the causes of a failure.
-/

namespace Vswitch

/-- A non-negative error number. -/
structure Errno where
  value : Int32
  deriving DecidableEq, Repr, Inhabited

namespace Errno

/-- The number of a code, which the kernel sends negated. The least code has no absolute value and
gives the greatest number. -/
def ofCode (code : Int32) : Errno :=
  if code = Int32.minValue then ⟨Int32.maxValue⟩ else if code < 0 then ⟨-code⟩ else ⟨code⟩

def noEntry : Errno := ⟨2⟩
def noDevice : Errno := ⟨19⟩

/-- Replies were lost because the buffer for them was full. -/
def noBufferSpace : Errno := ⟨105⟩

/-- Whether the object that a request named does not exist. -/
def isNotFound (e : Errno) : Bool := e == noEntry || e == noDevice

/-- What a number means, for the numbers that datapaths report. -/
def meaning? (e : Errno) : Option String :=
  [((1 : Int32), "Operation not permitted"),
    (2, "No such file or directory"),
    (11, "Resource temporarily unavailable"),
    (12, "Cannot allocate memory"),
    (16, "Device or resource busy"),
    (17, "File exists"),
    (19, "No such device"),
    (22, "Invalid argument"),
    (27, "File too large"),
    (95, "Operation not supported"),
    (97, "Address family not supported by protocol"),
    (105, "No buffer space available")].lookup e.value

/-- The text of a number whose meaning is known. -/
def text? (e : Errno) : Option String :=
  e.meaning?.map fun meaning =>
    let number := e.value.toInt.repr
    s!"{meaning} (os error {number}) (errno {number})"

end Errno

end Vswitch
