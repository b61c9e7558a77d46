import Std.Data.ExtTreeMap

namespace StackLang

/-- The variables of a program, in the order of their names. -/
abbrev Store := Std.ExtTreeMap String Float

end StackLang
