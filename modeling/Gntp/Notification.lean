import Gntp.Log
import Gntp.Registry
import Gntp.Resource

/-! A notification as it is displayed. -/

namespace Gntp

/-- A notification, ready to be displayed. -/
structure Notification where
  application : Application
  type : NotificationType
  id : Bytes
  title : Bytes
  text : Bytes
  icon : Bytes
  sticky : Bool
  priority : Int
  coalescingId : Bytes
  resources : List Resource
  /-- Seconds since 1970. -/
  timestamp : Int := 0
  deriving DecidableEq

namespace Notification

/-- The record of a resource of a notification. -/
def resourceRecord (resource : Resource) : Record :=
  let location := if resource.location = [] then ascii "<discarded>" else resource.location
  .debug (ascii "Notification: Resource " ++ resource.identifier ++ ascii " (" ++
    Decimal.ofNat resource.length ++ ascii " bytes) at " ++ location)

/-- The record of a notification itself. -/
def headline (application displayName title text : Bytes) (sticky : Bool) (priority : Int) :
    Record :=
  .info (ascii "Notification: [" ++ application ++ ascii "/" ++ displayName ++ ascii "] " ++
    title ++ (if text = [] then [] else ascii " - " ++ text) ++
    (if sticky then ascii " (sticky)" else []) ++
    ascii " priority=" ++ Decimal.ofInt priority)

/-- Displaying a notification in the log: a record for it and one for each of its resources. -/
def records (n : Notification) : List Record :=
  headline n.application.name n.type.displayName n.title n.text n.sticky n.priority ::
    n.resources.map resourceRecord

end Notification

end Gntp
