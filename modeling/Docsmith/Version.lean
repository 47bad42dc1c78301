/-
The version of the program.
-/
namespace Docsmith

def version : String := "0.3.0"

end Docsmith
