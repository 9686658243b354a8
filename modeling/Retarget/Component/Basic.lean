import Retarget.Text.Basic

/-
  This file defines the technologies that a project may be
  built on, and sets of them.

  Key definitions include:
    * `Component`
    * `ComponentSet`
    * `ComponentSet.union`
    * `ComponentSet.text`
    * `ComponentSet.parse`

  Key statements include:
    * `ComponentSet.contains_ofPredicate`
-/

namespace Retarget

------------------------------------------------------------
-- Components
------------------------------------------------------------

inductive Component where
  | aspNet
  | aspNetCore
  | winForms
  | wpf
  | windowsDesktop
  | winRT
  | winUI
  | xamarinAndroid
  | xamarinIos
  | maui
  | wcf
  deriving Repr, DecidableEq, Inhabited

namespace Component

def title : Component → String
  | aspNet => "AspNet"
  | aspNetCore => "AspNetCore"
  | winForms => "WinForms"
  | wpf => "Wpf"
  | windowsDesktop => "WindowsDesktop"
  | winRT => "WinRT"
  | winUI => "WinUI"
  | xamarinAndroid => "XamarinAndroid"
  | xamarinIos => "XamarinIos"
  | maui => "Maui"
  | wcf => "Wcf"

/- All components in the order in which sets list them. -/
def all : List Component :=
  [aspNet, aspNetCore, winForms, wpf, windowsDesktop, winRT, winUI,
   xamarinAndroid, xamarinIos, maui, wcf]

/- The bit that stands for a component in a set. -/
def bit (c : Component) : Nat :=
  Nat.pow 2 (all.idxOf c)

def ofTitle? (text : String) : Option Component :=
  all.find? fun c => Text.equalsIgnoringAsciiCase c.title text

theorem mem_all
    (c : Component) :
    c ∈ all := by
  cases c <;> decide

end Component

------------------------------------------------------------
-- Sets
------------------------------------------------------------

/- A set lists its members in the order of all components. -/
structure ComponentSet where
  members : List Component
  deriving Repr, DecidableEq, Inhabited

namespace ComponentSet

def ofPredicate (p : Component → Bool) : ComponentSet :=
  ⟨Component.all.filter p⟩

def empty : ComponentSet :=
  ⟨[]⟩

def ofList (cs : List Component) : ComponentSet :=
  ofPredicate cs.contains

variable (s : ComponentSet)

def contains (c : Component) : Bool :=
  s.members.contains c

def union (s t : ComponentSet) : ComponentSet :=
  ofPredicate fun c => s.contains c || t.contains c

/- Some of the components are in the set. -/
def containsAny (cs : List Component) : Bool :=
  cs.any s.contains

def isEmpty : Bool :=
  s.members.isEmpty

def isWeb : Bool :=
  s.containsAny [.aspNet, .aspNetCore]

theorem contains_ofPredicate
    (p : Component → Bool)
    (c : Component) :
    (ofPredicate p).contains c = p c := by
  cases h : p c <;> simp [contains, ofPredicate, Component.mem_all, h]

theorem contains_union
    (s t : ComponentSet)
    (c : Component) :
    (s.union t).contains c = (s.contains c || t.contains c) :=
  contains_ofPredicate _ c

------------------------------------------------------------
-- Text
------------------------------------------------------------

def titles : List String :=
  s.members.map Component.title

/- The members with commas between them, or `None`. -/
def text : String :=
  if s.isEmpty then "None" else Text.join ", " s.titles

/- The members as the bits of a number. -/
def bits : Nat :=
  (s.members.map Component.bit).foldl (· + ·) 0

/- Add a component by name, unless the name says that there is none. -/
def addTitle (s : ComponentSet) (text : String) : Except String ComponentSet :=
  if Text.equalsIgnoringAsciiCase text "none" then .ok s
  else
    match Component.ofTitle? text with
    | some c => .ok (s.union (ofList [c]))
    | none => .error text

/- Read names between commas or bars; an unknown one is the error. -/
def parse (text : String) : Except String ComponentSet :=
  let names := (Text.splitWhere (fun c => c == ',' || c == '|') text).map
    Text.trim
  (names.filter (!·.isEmpty)).foldlM addTitle empty

/- What is said of a name that no component has. -/
def unknownMessage (name : String) : String :=
  "'" ++ name ++ "' is not a known project component"

end ComponentSet

end Retarget
