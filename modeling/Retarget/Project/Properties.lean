import Retarget.Path
import Retarget.Dictionary

/-
  This file defines the properties of a project, whose names
  do not depend on letter case, and texts that refer to
  them.

  Key definitions include:
    * `Properties`
    * `Properties.ofPath`
    * `Properties.find?`
    * `Properties.expand`
    * `Properties.isTrue`
-/

namespace Retarget

/- The values of properties by their names in lower case. -/
structure Properties where
  values : Dictionary String
  deriving Repr, DecidableEq, Inhabited

namespace Properties

variable (ps : Properties)

def find? (name : String) : Option String :=
  ps.values.find? (Text.lower name)

def set (name value : String) : Properties :=
  ⟨ps.values.insert (Text.lower name) value⟩

/- Only the word `true` counts, in any letter case. -/
def isTrue (name : String) : Bool :=
  (ps.find? name).any fun value =>
    Text.equalsIgnoringAsciiCase (Text.trim value) "true"

/- The properties that every project file has. -/
def ofPath (path : Path) : Properties :=
  let directory := (path.parent?.map Path.text).getD ""
  ⟨.ofList
    [("msbuildprojectdirectory", directory),
     ("msbuildthisfiledirectory", directory ++ "/"),
     ("msbuildprojectfile", path.fileName),
     ("msbuildprojectname", path.stem?.getD "")]⟩

/-
  Replace each `$(Name)` by the value of the property, and
  by nothing if there is none.  Values are not looked into,
  and an unclosed name ends the search.
-/
def expandChars : List Char → List Char
  | '$' :: '(' :: r =>
    match _h : Text.cutWhere? (· == ')') r with
    | some (name, rest) =>
      let value := (ps.find? (Text.trim (String.ofList name))).getD ""
      value.toList ++ expandChars (rest.drop 1)
    | none => '$' :: '(' :: r
  | c :: r => c :: expandChars r
  | [] => []
termination_by cs => cs.length
decreasing_by
  · have := congrArg List.length (Text.append_of_cutWhere? _h)
    simp only [List.length_append] at this
    simp only [List.length_drop, List.length_cons]
    omega
  · simp

def expand (text : String) : String :=
  String.ofList (ps.expandChars text.toList)

end Properties

end Retarget
