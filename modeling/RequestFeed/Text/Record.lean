/-!
# Records as text

The fields of a record on one line, for those who look into a running program.
-/

namespace RequestFeed
namespace RecordText

/-- A name, and fields with their values in braces. -/
def render (name : String) (fields : List (String × String)) : String :=
  name ++ " \x7b " ++ ", ".intercalate (fields.map fun f => f.1 ++ ": " ++ f.2) ++ " \x7d"

end RecordText
end RequestFeed
