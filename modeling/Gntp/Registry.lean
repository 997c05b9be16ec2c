import Gntp.Assoc
import Gntp.Failure

/-! The registered applications and their notification types. Both are numbered in the order in
which they were registered first, and keep their number when they are registered again. -/

namespace Gntp

structure Application where
  id : Nat
  name : Bytes
  icon : Bytes
  enabled : Bool := true
  deriving DecidableEq

structure NotificationType where
  id : Nat
  application : Bytes
  name : Bytes
  displayName : Bytes
  enabled : Bool
  icon : Bytes
  deriving DecidableEq

structure Registry where
  /-- By name. -/
  applications : List (Bytes × Application) := []
  /-- By the name of the application and the name of the type. -/
  types : List ((Bytes × Bytes) × NotificationType) := []
  nextId : Nat := 1
  deriving DecidableEq

namespace Registry

def application? (r : Registry) (name : Bytes) : Option Application := r.applications.lookup name

/-- The notification type of an application with a name. -/
def type? (r : Registry) (application name : Bytes) : Option NotificationType :=
  r.types.lookup (application, name)

/-- Registers an application, or gives one that is registered another icon. -/
def registerApplication (r : Registry) (name icon : Bytes) : Application × Registry :=
  match r.application? name with
  | some application =>
    let application := { application with icon }
    (application, { r with applications := Assoc.set name application r.applications })
  | none =>
    let application : Application := { id := r.nextId, name, icon }
    (application, { r with
      applications := Assoc.set name application r.applications
      nextId := r.nextId + 1 })

/-- Registers a notification type of a registered application, or gives one that is registered
other properties. It is displayed by its name unless it says otherwise. -/
def registerType (r : Registry) (application name displayName : Bytes) (enabled : Bool)
    (icon : Bytes) : Except Failure (NotificationType × Registry) :=
  if (r.application? application).isNone then .error (.unknownOwner application)
  else
    let displayName := if displayName = [] then name else displayName
    match r.type? application name with
    | some type =>
      let type := { type with displayName, enabled, icon }
      .ok (type, { r with types := Assoc.set (application, name) type r.types })
    | none =>
      let type : NotificationType :=
        { id := r.nextId, application, name, displayName, enabled, icon }
      .ok (type, { r with
        types := Assoc.set (application, name) type r.types
        nextId := r.nextId + 1 })

def applicationCount (r : Registry) : Nat := r.applications.length

def typeCount (r : Registry) (application : Bytes) : Nat :=
  r.types.countP fun entry => entry.1.1 = application

end Registry

end Gntp
