/-! # Beginnings and ends of texts

Messages are told apart by the fixed text that they begin or end with. On closed texts both conditions are
decided. -/

namespace RecordGate.Text

end RecordGate.Text
