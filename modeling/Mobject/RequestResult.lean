/-! # UUID, Exception and RequestResult

The plain data of `UUID.hpp`, `Exception.hpp` and `RequestResult.hpp`. The class template and its
two specialisations have different members, so each is a structure of its own.
-/
namespace Mobject
set_option autoImplicit false

/-- `uuid_t m_data`: sixteen bytes, compared with `memcmp`. -/
structure UUID where
  m_data : Vector UInt8 16
  deriving DecidableEq

/-- `UUID()`: `uuid_clear`. -/
def UUID.cleared : UUID := ⟨Vector.replicate 16 0⟩

structure Exception where
  m_error : String
  deriving DecidableEq

/-- `RequestResult<T>`. `m_value` has no initialiser in the class, so a constructor call names
the value that `T()` or the storage gives it. -/
structure RequestResult (T : Type) where
  m_success : Bool := true
  m_error : String := ""
  m_value : T
  deriving DecidableEq

namespace RequestResult
variable {T : Type}

def success (r : RequestResult T) : Bool := r.m_success
def error (r : RequestResult T) : String := r.m_error
def value (r : RequestResult T) : T := r.m_value

end RequestResult

/-- `RequestResult<bool>`: the value and the success flag are one variable. -/
structure RequestResultBool where
  m_success : Bool := true
  m_error : String := ""
  deriving DecidableEq

namespace RequestResultBool

def success (r : RequestResultBool) : Bool := r.m_success
def error (r : RequestResultBool) : String := r.m_error
def value (r : RequestResultBool) : Bool := r.m_success

end RequestResultBool

/-- `RequestResult<std::string>`: the value and the error are one variable. -/
structure RequestResultString where
  m_success : Bool := true
  m_content : String := ""
  deriving DecidableEq

namespace RequestResultString

def success (r : RequestResultString) : Bool := r.m_success
def error (r : RequestResultString) : String := r.m_content
def value (r : RequestResultString) : String := r.m_content

end RequestResultString

inductive Response where
  | uuid (result : RequestResult UUID)
  | bool (result : RequestResultBool)
  | int32 (result : RequestResult Int32)
  deriving DecidableEq

namespace Response

def success : Response → Bool
  | .uuid result => result.success
  | .bool result => result.success
  | .int32 result => result.success

def error : Response → String
  | .uuid result => result.error
  | .bool result => result.error
  | .int32 result => result.error

/-- `RequestResult<UUID>` as an admin handler fills it on an error path. -/
def uuidFailure (error : String) : Response :=
  .uuid { m_success := false, m_error := error, m_value := .cleared }

def boolFailure (error : String) : Response := .bool { m_success := false, m_error := error }

@[simp] theorem success_uuidFailure (error : String) : (uuidFailure error).success = false := rfl

end Response

end Mobject
