import TransactScript.Calendar
import TransactScript.HostType
import TransactScript.Number.Binary
import TransactScript.Uuid

/-!
Types of the host language that have a host type of their own.
-/

namespace TransactScript

class HostTyped (α : Type) where
  hostType : HostType

instance : HostTyped Bool := ⟨⟨.bool, false⟩⟩
instance : HostTyped UInt8 := ⟨⟨.byte, false⟩⟩
instance : HostTyped String := ⟨⟨.string, false⟩⟩
instance : HostTyped DateTime := ⟨⟨.dateTime, false⟩⟩
instance : HostTyped OffsetDateTime := ⟨⟨.dateTimeOffset, false⟩⟩
instance : HostTyped Int16 := ⟨⟨.short, false⟩⟩
instance : HostTyped Int32 := ⟨⟨.int, false⟩⟩
instance : HostTyped Int64 := ⟨⟨.long, false⟩⟩
instance : HostTyped Float := ⟨⟨.double, false⟩⟩
instance : HostTyped Float32 := ⟨⟨.float, false⟩⟩
instance : HostTyped TimeOfDay := ⟨⟨.timeSpan, false⟩⟩
instance : HostTyped Uuid := ⟨⟨.guid, false⟩⟩
instance : HostTyped (List UInt8) := ⟨⟨.bytes, false⟩⟩
instance : HostTyped (List Char) := ⟨⟨.chars, false⟩⟩

instance {α : Type} [HostTyped α] : HostTyped (Option α) :=
  ⟨(HostTyped.hostType α).asNullable⟩

end TransactScript
