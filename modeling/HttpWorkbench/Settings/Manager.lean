import HttpWorkbench.Settings.Document

/-!
# The settings manager

A manager holds the defaults in a dictionary. It makes settings from a copy of it, which is overlaid with
a file and with the dictionary of a caller. Dictionaries are held in memory, where all who hold one see
what is put into it, and a custom table may be held in several of them.
-/

namespace HttpWorkbench.Settings

/-- What a layer holds under a key: a value, or a custom table that others may hold as well. -/
inductive Slot where
  | value (v : Value)
  | table (number : Nat)

/-- The layers and the custom tables in memory, by number. -/
structure Memory where
  layers : List (List (Value × Slot))
  tables : List (List (Value × Value))

/-- The layer of the file that is named, if one is. -/
def fileLayer (files : Files) (file : Value) : Result (List (Value × Value)) :=
  if file.isTrue then do
    let path ← Path.ofValue file
    readLayer files path
  else .ok []

namespace Memory

/-- The entries of a layer. -/
def layer (m : Memory) (number : Nat) : List (Value × Slot) := m.layers.getD number []

/-- The entries of a custom table. -/
def table (m : Memory) (number : Nat) : List (Value × Value) := m.tables.getD number []

/-- The value in a slot. -/
def read (m : Memory) : Slot → Value
  | .value v => v
  | .table number => .map (m.table number)

/-- The entries with the values in their slots. -/
def readAll (m : Memory) (entries : List (Value × Slot)) : List (Value × Value) :=
  entries.map fun e => (e.1, m.read e.2)

/-- One more layer, under the next number. -/
def newLayer (m : Memory) (entries : List (Value × Slot)) : Memory :=
  { m with layers := m.layers ++ [entries] }

/-- One more custom table, under the next number. -/
def newTable (m : Memory) (entries : List (Value × Value)) : Memory :=
  { m with tables := m.tables ++ [entries] }

/-- Put entries into a layer, in its place. -/
def updateLayer (m : Memory) (number : Nat) (pairs : List (Value × Slot)) : Memory :=
  { m with layers := m.layers.set number (Assoc.putAll (m.layer number) pairs) }

/-- Put entries into a custom table, in its place. -/
def updateTable (m : Memory) (number : Nat) (pairs : List (Value × Value)) : Memory :=
  { m with tables := m.tables.set number (Assoc.putAll (m.table number) pairs) }

/-- The defaults as a layer with a custom table. -/
def defaultLayer (custom : Slot) : List (Value × Slot) :=
  default.ownFields.map (fun f => (.str f.1, .value f.2)) ++ [(.str "custom", custom)]

/-- Start a manager, which holds the defaults in the next layer. -/
def startManager (m : Memory) : Memory :=
  (m.newTable []).newLayer (defaultLayer (.table m.tables.length))

/-- A copy of a manager's defaults in the next layer, with a custom table of its own. -/
def copyDefaults (m : Memory) (manager : Nat) : Memory :=
  ((m.newLayer (m.layer manager)).newTable []).updateLayer m.layers.length
    [(.str "custom", .table m.tables.length)]

/-- Put the entries of a file and of a caller's layer into a layer. -/
def overlay (m : Memory) (base : Nat) (file : List (Value × Value)) (overrides : Option Nat) : Memory :=
  let m := m.updateLayer base (file.map fun e => (e.1, .value e.2))
  match overrides with
  | some number => m.updateLayer base (m.layer number)
  | none => m

/-- The settings that a layer describes. Unknown entries are put into a copy of its custom table. -/
def settings (m : Memory) (base : Nat) : Memory × Result Settings :=
  let known := (m.layer base).filter fun e => isKnown e.1
  let unknown := (m.layer base).filter fun e => !isKnown e.1
  if unknown.isEmpty then (m, make (m.readAll known))
  else
    match ((Value.fieldOr "custom" (m.readAll known) .null).orElse (.map [])).toDictionary with
    | .error failure => (m, .error failure)
    | .ok custom =>
      let copy := m.tables.length
      let m := (m.newTable custom).updateTable copy (m.readAll unknown)
      (m, make (m.readAll (Assoc.put (.str "custom") (.table copy) known)))

/-- A call: the settings from the defaults of a manager, a file and the layer of a caller. -/
def getSettings (m : Memory) (files : Files) (manager : Nat) (overrides : Option Nat) (file : Value) :
    Memory × Result Settings :=
  let base := m.layers.length
  let m := m.copyDefaults manager
  match fileLayer files file with
  | .error failure => (m, .error failure)
  | .ok layer => (m.overlay base layer overrides).settings base

end Memory

end HttpWorkbench.Settings
