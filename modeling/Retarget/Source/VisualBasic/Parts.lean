import Retarget.Source.VisualBasic.Mask
import Retarget.Source.VisualBasic.Line
import Retarget.Source.VisualBasic.Mention

/-
  This file puts together what the Visual Basic front end
  reports about a file.

  Key definitions include:
    * `VisualBasic.parts`
-/

namespace Retarget.VisualBasic

def parts (text : String) : SourceParts :=
  let masked := mask text.toList
  let imports := importLines masked
  let scopes := namespaceScopes masked
  { names := mentions masked
    imports := imports.filterMap Prod.snd
    importSpans := imports.map Prod.fst
    declarations := typeDeclarations scopes masked
    namespaces := scopes }

end Retarget.VisualBasic
