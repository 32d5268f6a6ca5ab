import Mobject.ProviderImpl

/-! # The dummy backend

`DummyBackend.cpp`: the one backend of the repository, registered under the name `dummy`.
-/
namespace Mobject
set_option autoImplicit false

inductive RegisteredBackend where
  | DummySequencer
  deriving DecidableEq

/-- `MOBJECT_REGISTER_BACKEND(dummy, DummySequencer)` fills both maps under the same name. -/
def registered : SequencerFactory RegisteredBackend where
  create_fn name := if name = "dummy" then some .DummySequencer else none
  open_fn name := if name = "dummy" then some .DummySequencer else none

namespace DummySequencer

def sayHello : MethodResult Unit := .returned ()

/-- `x + y` in `int32_t`; `none` where the sum leaves the type, which C++ leaves undefined. -/
def computeSum (x y : Int32) : Option (RequestResult Int32) :=
  if Int32.minValue.toInt ≤ x.toInt + y.toInt ∧ x.toInt + y.toInt ≤ Int32.maxValue.toInt then
    some { m_value := Int32.ofInt (x.toInt + y.toInt) }
  else none

def destroy : RequestResultBool := { m_success := true }

/-- A step in a process whose backends are all dummies; an overflowing sum wraps around. -/
def outcomes (generated : UUID) (indeterminate : Int32) : Outcomes RegisteredBackend Unit where
  generated := generated
  indeterminate := indeterminate
  invoke _ _ _ := .backend
  sayHello _ := sayHello
  computeSum _ x y := .returned ((computeSum x y).getD { m_value := x + y })
  destroy _ := .returned destroy

end DummySequencer

/-- A provider of the dummy backend over a parser with one text of each kind. -/
def dummyProvider (m_token : String) : ProviderImpl RegisteredBackend Unit where
  m_token := m_token
  factory := registered
  parse text :=
    if text = "1e999" then .out_of_range "number overflow"
    else if text = "" then .parse_error "unexpected end of input"
    else .value ()
  uuid_unparse _ := "00000000-0000-0000-0000-000000000000"

end Mobject
