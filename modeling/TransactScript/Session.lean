import TransactScript.Draft.Table

/-!
Work on one script: sections are opened, filled and finished one after the other. A step that fails
drops the open section and leaves the script as it was.
-/

namespace TransactScript

inductive Draft where
  | table (draft : TableDraft)
  | insert (draft : InsertDraft)
deriving DecidableEq, Repr

inductive Opening where
  | declare (name : String)
  | declareFrom (schema : Schema) (name : String)
  | insert (destination : String)
  | insertFrom (schema : Schema) (destination : String)
deriving DecidableEq, Repr

inductive TableStep where
  | column (name : String) (type : ColumnType) (allowNull isPrimaryKey : Bool)
  | add (column : TableColumn)
  | property (name : String) (type : Option ColumnType) (allowNull : Option Bool) (isPrimaryKey : Bool)
  | generate
  /-- The function keeps no state from one property to the next: this leaves out builders of columns that do. -/
  | generateWith (columnOf : Property → Except Fault TableColumn)

inductive InsertStep where
  | column (name : String) (type : ColumnType)
  | add (column : Column)
  | property (name : String) (type : Option ColumnType)
  | generate
  /-- The function keeps no state, as in the step of a table. -/
  | generateWith (columnOf : Property → Except Fault Column)
  | define (source : Source)

inductive Action where
  | opening (o : Opening)
  | table (s : TableStep)
  | insert (s : InsertStep)
  | finalize
  | beginInsert
  | abandon

namespace Opening

def nameOrDefault (name : String) (schema : Schema) : String :=
  if Text.isBlankText name then schema.name else name

def draft : Opening → Except Fault Draft
  | declare name => do pure (.table (.start (← VariableName.parse name) none))
  | declareFrom schema name => do
      pure (.table (.start (← VariableName.parse (nameOrDefault name schema)) (some schema)))
  | insert destination => do pure (.insert (.start (← Destination.parse destination) none))
  | insertFrom schema destination => do
      pure (.insert (.start (← Destination.parse (nameOrDefault destination schema)) (some schema)))

end Opening

def TableStep.apply (d : TableDraft) : TableStep → Logged TableDraft
  | column name type allowNull isPrimaryKey => d.column name type allowNull isPrimaryKey
  | add c => d.add c
  | property name type allowNull isPrimaryKey => d.propertyColumn name type allowNull isPrimaryKey
  | generate => d.generate
  | generateWith columnOf => d.generateWith columnOf

def InsertStep.apply (d : InsertDraft) : InsertStep → Logged InsertDraft
  | column name type => d.column name type
  | add c => d.add c
  | property name type => d.propertyColumn name type
  | generate => d.generate
  | generateWith columnOf => d.generateWith columnOf
  | define source => d.define source

structure Session where
  script : Script
  draft : Option Draft := none
deriving DecidableEq, Repr

structure Performed where
  session : Session
  answer : Logged Unit

namespace Session

def redraft (s : Session) (changed : Logged Draft) : Performed :=
  match changed.outcome with
  | .ok d => ⟨{ s with draft := some d }, ⟨.ok (), changed.events⟩⟩
  | .error fault => ⟨{ s with draft := none }, ⟨.error fault, changed.events⟩⟩

def close (s : Session) (changed : Logged Script) : Performed :=
  match changed.outcome with
  | .ok script => ⟨⟨script, none⟩, ⟨.ok (), changed.events⟩⟩
  | .error fault => ⟨{ s with draft := none }, ⟨.error fault, changed.events⟩⟩

/-- The declaration is finished first and stays, whatever becomes of the insert. -/
def beginInsert (s : Session) (d : TableDraft) : Performed :=
  let declared := s.close (d.finalize s.script)
  match declared.answer.outcome with
  | .error _ => declared
  | .ok _ =>
      let opened := declared.session.redraft (.insert <$> d.insertStart.addAll d.seed)
      ⟨opened.session, ⟨opened.answer.outcome, declared.answer.events ++ opened.answer.events⟩⟩

def perform? (s : Session) : Action → Option Performed
  | .opening o =>
      match s.draft with
      | none => some (s.redraft (Logged.ofExcept o.draft))
      | some _ => none
  | .table step =>
      match s.draft with
      | some (.table d) => some (s.redraft (.table <$> step.apply d))
      | _ => none
  | .insert step =>
      match s.draft with
      | some (.insert d) => some (s.redraft (.insert <$> step.apply d))
      | _ => none
  | .finalize =>
      match s.draft with
      | some (.table d) => some (s.close (d.finalize s.script))
      | some (.insert d) => some (s.close (d.finalize s.script))
      | none => none
  | .beginInsert =>
      match s.draft with
      | some (.table d) => some (s.beginInsert d)
      | _ => none
  | .abandon =>
      match s.draft with
      | some _ => some ⟨{ s with draft := none }, pure ()⟩
      | none => none

end Session

end TransactScript
