import Gntp.Resource

/-! A request as it was read, and the names of the headers in it. -/

namespace Gntp

namespace Key

def applicationName : Bytes := ascii "Application-Name"
def applicationIcon : Bytes := ascii "Application-Icon"
def notificationsCount : Bytes := ascii "Notifications-Count"
def notificationName : Bytes := ascii "Notification-Name"
def notificationDisplayName : Bytes := ascii "Notification-Display-Name"
def notificationEnabled : Bytes := ascii "Notification-Enabled"
def notificationIcon : Bytes := ascii "Notification-Icon"
def notificationId : Bytes := ascii "Notification-ID"
def notificationTitle : Bytes := ascii "Notification-Title"
def notificationText : Bytes := ascii "Notification-Text"
def notificationSticky : Bytes := ascii "Notification-Sticky"
def notificationPriority : Bytes := ascii "Notification-Priority"
def notificationCoalescingId : Bytes := ascii "Notification-Coalescing-ID"

end Key

/-- A notification type that a registration declares. -/
structure TypeDeclaration where
  name : Bytes
  displayName : Bytes
  enabled : Bool
  icon : Bytes
  deriving DecidableEq

namespace TypeDeclaration

/-- A text, or another one if it is empty. -/
def nonEmptyOr (text fallback : Bytes) : Bytes := if text = [] then fallback else text

theorem nonEmptyOr_ne_nil {text fallback : Bytes} (h : fallback ≠ []) :
    nonEmptyOr text fallback ≠ [] := by
  unfold nonEmptyOr
  split
  · exact h
  · assumption

/-- Reads a block of headers. A type needs a name, and is displayed by it unless it says
otherwise. -/
def ofHeaders (h : Headers) : Except Rejection TypeDeclaration :=
  match h.get? Key.notificationName with
  | none | some [] => .error .namelessType
  | some name => .ok {
      name
      displayName := nonEmptyOr (h.getD Key.notificationDisplayName []) name
      enabled := Headers.isTrue (h.getD Key.notificationEnabled [])
      icon := h.getD Key.notificationIcon [] }

end TypeDeclaration

structure Request where
  messageType : MessageType := .notify
  /-- A notification without a valid password that is answered but not acted on. -/
  ignored : Bool := false
  headers : Headers := {}
  types : List TypeDeclaration := []
  attachments : Attachments := {}
  /-- Seconds since 1970. -/
  receivedAt : Int := 0
  deriving DecidableEq

end Gntp
