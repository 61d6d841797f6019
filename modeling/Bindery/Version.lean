/-
The version of the library.
-/
namespace Bindery

/-- The version of the library. -/
def version : String := "0.1.0"

end Bindery
