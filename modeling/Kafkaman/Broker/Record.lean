import Kafkaman.Lib.Fallible
import Kafkaman.Core.Rows

/-!
# Broker.Record — records on the wire and the libraries that format them

`Codec` collects the third-party formatting a record goes through: UUID text, RFC 3339 times and JSON
text.  UTF-8, and the source's own layers over the rest (`Rfc9557`, the header namespaces), are
definitions.
-/

namespace Kafkaman
namespace Broker

open Lib

structure Codec where
  uuidText : Uuid → String
  parseUuid : String → Except String Uuid
  formatRfc3339 : Timestamp → Except String String
  parseRfc3339 : String → Except String Timestamp
  /-- `serde_json::Value::to_string`. -/
  jsonText : Json → String
  parseJson : String → Option Json
  /-- `serde_json::to_vec`. -/
  jsonBytes : Json → Except String Bytes

/-- The libraries read back what they wrote. -/
structure Codec.Lawful (codec : Codec) : Prop where
  parseUuid_uuidText : ∀ u, codec.parseUuid (codec.uuidText u) = .ok u
  parseRfc3339_format : ∀ t text, codec.formatRfc3339 t = .ok text →
    codec.parseRfc3339 text = .ok t ∧ '[' ∉ text.toList

/-! ## RFC 9557 timestamps -/

namespace Rfc9557

def render (codec : Codec) (t : Timestamp) : Except String String := do
  let text ← codec.formatRfc3339 t
  return text ++ "[UTC]"

/-- Everything before the annotation, or the whole text if there is none. -/
def base (text : String) : String :=
  String.ofList (text.toList.takeWhile (· ≠ '['))

def parse (codec : Codec) (text : String) : Except String Timestamp :=
  codec.parseRfc3339 (base text)

theorem base_annotated {raw : String} (h : '[' ∉ raw.toList) : base (raw ++ "[UTC]") = raw := by
  have hall : ∀ c ∈ raw.toList, decide (c ≠ '[') = true := by
    intro c hc
    exact decide_eq_true fun heq => h (heq ▸ hc)
  unfold base
  rw [String.toList_append, List.takeWhile_append_of_pos hall]
  simp

/-- What is rendered parses back: the annotation is cut off where it begins. -/
theorem parse_render {codec : Codec} (h : codec.Lawful) {t : Timestamp} {text : String}
    (hrender : render codec t = .ok text) : parse codec text = .ok t := by
  simp only [render, bind_eq_ok, pure_eq_ok] at hrender
  rcases hrender with ⟨raw, hformat, rfl⟩
  rcases h.parseRfc3339_format t raw hformat with ⟨hparse, hbracket⟩
  rw [parse, base_annotated hbracket, hparse]

end Rfc9557

/-! ## Records -/

structure RecordHeader where
  key : String
  value : Option Bytes
  deriving DecidableEq

/-- A record as a consumer receives it. -/
structure KafkaRecord where
  topic : String
  partition : Int
  offset : Int
  key : Option Bytes
  payload : Option Bytes
  headers : List RecordHeader
  deriving DecidableEq

/-- One of the two W3C trace keys, in any letter case. -/
def isTraceHeader (key : String) : Bool :=
  asciiLower key = "traceparent" || asciiLower key = "tracestate"

end Broker
end Kafkaman
