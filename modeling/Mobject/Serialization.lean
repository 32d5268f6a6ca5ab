import Mobject.RequestResult
import Mobject.Library.Codec

/-! # What goes over the wire

Each `serialize` is one list of members, which an output archive writes and an input archive
reads. The archives are those of thallium: all that is known of them is that they read back what
they wrote.
-/
namespace Mobject
open Codecs
set_option autoImplicit false

/-- An output archive and the input archive that goes with it. -/
structure Archive where
  bool : Codec Bool
  int32 : Codec Int32
  string : Codec String
  /-- `write(data, size)` and `read(data, size)` -/
  raw : ∀ size, Codec (Vector UInt8 size)

/-- The archive that copies memory, with the length before a string. -/
def Archive.memory : Archive := ⟨Codecs.bool, Codecs.int32, Codecs.text, Codecs.block⟩

variable (a : Archive)

namespace UUID

def save (sequencer_id : UUID) : List UInt8 := (a.raw 16).write sequencer_id.m_data

def load (bytes : List UInt8) : Option (UUID × List UInt8) :=
  ((a.raw 16).read bytes).map fun result => (⟨result.1⟩, result.2)

theorem load_save (sequencer_id : UUID) (rest : List UInt8) :
    load a (save a sequencer_id ++ rest) = some (sequencer_id, rest) := by
  simp [load, save, (a.raw 16).read_write]

def codec : Codec UUID := ⟨save a, load a, load_save a⟩

end UUID

def RequestResult.serialize {T : Type} (value : Codec T) : Codec (RequestResult T) :=
  (a.bool.and (a.string.and value)).build (fun m => ⟨m.1, m.2.1, m.2.2⟩)
    (fun r => (r.m_success, r.m_error, r.m_value)) fun _ => rfl

def RequestResultString.serialize : Codec RequestResultString :=
  (a.bool.and a.string).build (fun m => ⟨m.1, m.2⟩) (fun r => (r.m_success, r.m_content)) fun _ => rfl

def RequestResultBool.serialize : Codec RequestResultBool :=
  (a.bool.and a.string).build (fun m => ⟨m.1, m.2⟩) (fun r => (r.m_success, r.m_error)) fun _ => rfl

/-- The bytes of `req.respond(result)`. -/
def Response.encode : Response → List UInt8
  | .uuid result => (RequestResult.serialize a (UUID.codec a)).write result
  | .bool result => (RequestResultBool.serialize a).write result
  | .int32 result => (RequestResult.serialize a a.int32).write result

end Mobject
