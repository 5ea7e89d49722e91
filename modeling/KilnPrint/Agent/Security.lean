/-
Who calls the agent's API, and what they may do.

* `Permission`, `Principal` — an authenticated caller and its permissions;
* `Principal.require` — the check every operation begins with;
* `Principal.printerScope`, `Principal.submitter` — what the engine is told.

A principal's name, kind and origin are left out: no operation reads them.
-/
import KilnPrint.Model.Document

namespace KilnPrint

def adminClientId : String := "local-admin"

inductive Permission
  | printersRead
  | print
  /-- Read the client's own jobs. -/
  | jobsRead
  /-- Read every client's jobs. -/
  | jobsReadAll
  | jobsCancel
  | jobsCancelAll
  | queueRead
  /-- See connected clients. -/
  | clientsRead
  deriving DecidableEq, Repr

/-- `Permission::ALL`. -/
def Permission.all : List Permission :=
  [printersRead, print, jobsRead, jobsReadAll, jobsCancel, jobsCancelAll, queueRead, clientsRead]

def permissionName : Permission → String
  | .printersRead => "printers.read"
  | .print => "print"
  | .jobsRead => "jobs.read"
  | .jobsReadAll => "jobs.read.all"
  | .jobsCancel => "jobs.cancel"
  | .jobsCancelAll => "jobs.cancel.all"
  | .queueRead => "queue.read"
  | .clientsRead => "clients.read"

/-- An authenticated caller. -/
structure Principal where
  clientId : String
  permissions : List Permission
  /-- `["*"]` or explicit printer ids and names. -/
  printers : List String
  deriving DecidableEq

namespace Principal

def has (who : Principal) (permission : Permission) : Bool :=
  who.permissions.contains permission

/-- The error of a missing permission. -/
def lacks (permission : Permission) : PrintError :=
  let name := permissionName permission
  .new .accessDenied s!"this client lacks the '{name}' permission"

def require (who : Principal) (permission : Permission) : Except PrintError Unit :=
  if who.has permission then .ok () else .error (lacks permission)

def printerScope (who : Principal) : PrinterScope :=
  if who.printers.any (· == "*") then .all else .only who.printers

def submitter (who : Principal) : Submitter where
  clientId := who.clientId
  printers := who.printerScope

theorem require_eq_ok {who : Principal} {permission : Permission} {u : Unit} :
    who.require permission = .ok u ↔ who.has permission = true := by
  unfold require
  split
  case isTrue h => exact ⟨fun _ => h, fun _ => rfl⟩
  case isFalse h =>
    constructor
    · intro he
      cases he
    · intro hp
      exact absurd hp h

theorem require_of_lacks {who : Principal} {permission : Permission}
    (h : who.has permission = false) : who.require permission = .error (lacks permission) := by
  rw [require, if_neg (Bool.eq_false_iff.mp h)]

end Principal

end KilnPrint
