import Gntp.Bytes

/-! How far the reading of a request has come. -/

namespace Gntp

/-- What is to be read next. -/
inductive Phase where
  | requestLine
  | requestHeaders
  /-- One block for each notification type that a registration declares. -/
  | typeHeaders
  | resourceHeaders
  | resourceData
  | complete
  /-- The answer has gone out. -/
  | answered
  deriving DecidableEq

namespace Phase

/-- The name used in messages. -/
def name : Phase → Bytes
  | requestLine => ascii "CONNECTED"
  | requestHeaders => ascii "READING_REQUEST_HEADERS"
  | typeHeaders => ascii "READING_NOTIFICATION_HEADERS"
  | resourceHeaders => ascii "READING_RESOURCE_HEADERS"
  | resourceData => ascii "READING_RESOURCE_DATA"
  | complete => ascii "END_OF_REQUEST"
  | answered => ascii "RESPONSE_SENT"

/-- Whether the request line was read and there is more to read. -/
def isUnderWay : Phase → Bool
  | requestHeaders | typeHeaders | resourceHeaders | resourceData => true
  | requestLine | complete | answered => false

end Phase

end Gntp
