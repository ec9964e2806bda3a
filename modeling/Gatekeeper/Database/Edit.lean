import Gatekeeper.Database.Basic

namespace Gatekeeper.Database

/-- What an edit answers: how many rows it changed, and the tables if it wrote any. -/
abbrev Edited := Option (Nat × Option Database)

def setCell (name : String) (cell : Cell) (d : Database) : Edited :=
  d.keys.map fun table ↦
    let changed := table.rows.countP (Row.isOf name)
    (changed, if changed = 0 then none else some { d with keys := some (table.set name cell) })

def setVersion (version : Int) (d : Database) : Edited :=
  d.versions.map fun vs ↦
    (vs.length, if vs.isEmpty then none else some { d with versions := some (vs.map fun _ ↦ .integer version) })

def deleteVersion (d : Database) : Edited :=
  d.versions.map fun vs ↦ (vs.length, some { d with versions := some [] })

def dropKeys (d : Database) : Edited :=
  d.keys.map fun _ ↦ (0, some { d with keys := none })

structure Contents where
  rows : List (String × Cell)
  versions : List Int

/-- The contents of tables whose rows have names and whose versions are numbers. -/
def contents? (d : Database) : Option Contents := do
  let rows ← (← d.keys).rows.mapM fun r ↦ r.name?.map (·, r.key)
  let versions ← (← d.versions).mapM Cell.integer?
  some { rows, versions }

end Gatekeeper.Database
