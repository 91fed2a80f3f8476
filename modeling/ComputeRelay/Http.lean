import ComputeRelay.Url

/-! Exchanges over HTTP: JSON text is posted to an address, and a reply comes, or the exchange
fails, or the time for it runs out. -/

namespace ComputeRelay

structure HttpRequest where
  url : Url
  body : String
deriving DecidableEq, Repr

structure HttpReply where
  status : Nat
  /-- The length announced for the body, if one is. -/
  declaredLength : Option Nat
  /-- The body in the pieces in which it came. -/
  chunks : List Bytes
  /-- Whether the body came to its end. -/
  isComplete : Bool := true
deriving DecidableEq, Repr, Inhabited

inductive HttpOutcome
  | reply (r : HttpReply)
  | failed (detail : String)
  | timedOut
deriving DecidableEq, Repr

namespace HttpReply

def body (r : HttpReply) : Bytes := r.chunks.flatten

def isSuccess (r : HttpReply) : Bool := 200 ≤ r.status && r.status < 300

def phrases : List (Nat × String) :=
  [(100, "Continue"), (101, "Switching Protocols"), (102, "Processing"), (200, "OK"),
    (201, "Created"), (202, "Accepted"), (203, "Non Authoritative Information"),
    (204, "No Content"), (205, "Reset Content"), (206, "Partial Content"), (207, "Multi-Status"),
    (208, "Already Reported"), (226, "IM Used"), (300, "Multiple Choices"),
    (301, "Moved Permanently"), (302, "Found"), (303, "See Other"), (304, "Not Modified"),
    (305, "Use Proxy"), (307, "Temporary Redirect"), (308, "Permanent Redirect"),
    (400, "Bad Request"), (401, "Unauthorized"), (402, "Payment Required"), (403, "Forbidden"),
    (404, "Not Found"), (405, "Method Not Allowed"), (406, "Not Acceptable"),
    (407, "Proxy Authentication Required"), (408, "Request Timeout"), (409, "Conflict"),
    (410, "Gone"), (411, "Length Required"), (412, "Precondition Failed"),
    (413, "Payload Too Large"), (414, "URI Too Long"), (415, "Unsupported Media Type"),
    (416, "Range Not Satisfiable"), (417, "Expectation Failed"), (418, "I'm a teapot"),
    (421, "Misdirected Request"), (422, "Unprocessable Entity"), (423, "Locked"),
    (424, "Failed Dependency"), (426, "Upgrade Required"), (428, "Precondition Required"),
    (429, "Too Many Requests"), (431, "Request Header Fields Too Large"),
    (451, "Unavailable For Legal Reasons"), (500, "Internal Server Error"),
    (501, "Not Implemented"), (502, "Bad Gateway"), (503, "Service Unavailable"),
    (504, "Gateway Timeout"), (505, "HTTP Version Not Supported"),
    (506, "Variant Also Negotiates"), (507, "Insufficient Storage"), (508, "Loop Detected"),
    (510, "Not Extended"), (511, "Network Authentication Required")]

def statusText (r : HttpReply) : String :=
  toString r.status ++ " " ++ (phrases.lookup r.status).getD "<unknown status code>"

end HttpReply

end ComputeRelay
