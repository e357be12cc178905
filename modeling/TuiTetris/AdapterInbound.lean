import TuiTetris.AdapterWire

set_option autoImplicit false

/-!
# Messages of clients

`parse_message` tells the message by its tag and reads the rest. Where that fails for a
message of a type that the protocol does not know, it is enough that its `type` and `seq`
can be read; what else the line holds is then only skimmed.
-/
namespace TuiTetris.AdapterInbound
open LibJson LibJsonRecord LibText AdapterBroker AdapterMessages AdapterWire

section Alike

variable {ms ms' : List (Text × Json)}

end Alike

end TuiTetris.AdapterInbound
