import Retarget.Symbol.Resolution
import Retarget.Rule.Builtin

/-
  This file defines what is analyzed together: source files,
  the files of rules beside them, and the symbols that their
  names can mean.

  Key definitions include:
    * `Compilation`
    * `Compilation.addSource`
    * `Compilation.withReferences`
    * `Compilation.model`
-/

namespace Retarget

structure Compilation where
  trees : List SourceTree
  additional : List AdditionalText
  references : SymbolTable
  /- The references and what the sources declare. -/
  symbols : SymbolTable
  deriving Repr, Inhabited

namespace Compilation

def empty : Compilation :=
  ⟨[], [], .empty, .empty⟩

/- Add what a source file declares to a table. -/
def declare (table : SymbolTable) (tree : SourceTree) : SymbolTable :=
  let typed := tree.declarations.foldl
    (fun table d => (table.addType d.fullName).1) table
  tree.namespaces.foldl
    (fun table s => (table.addNamespace s.name).1) typed

def addTree (c : Compilation) (tree : SourceTree) : Compilation :=
  { c with
    trees := c.trees ++ [tree]
    symbols := declare c.symbols tree }

def addSource
    [CSharp.Grammar]
    (c : Compilation)
    (path : Path)
    (text : String) : Except AnalysisError Compilation := do
  return c.addTree (← SourceTree.parse path text)

def addAdditional (c : Compilation) (file : AdditionalText) : Compilation :=
  { c with additional := c.additional ++ [file] }

def withReferences (c : Compilation) (table : SymbolTable) : Compilation :=
  { c with
    references := table
    symbols := c.symbols.merge table }

/- The first source file of a path. -/
def tree? (c : Compilation) (path : Path) : Option SourceTree :=
  c.trees.find? fun t => t.path.same path

def model (c : Compilation) (tree : SourceTree) : SemanticModel :=
  ⟨tree, c.symbols⟩

end Compilation

end Retarget
