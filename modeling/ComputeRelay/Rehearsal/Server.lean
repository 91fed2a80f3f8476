import ComputeRelay.Relay.Network

/-! Scripted HTTP servers, and sessions rehearsed against them. -/

namespace ComputeRelay.Rehearsal

/-- How a server sends what it has to say. -/
inductive Conduct
  | plain
  /-- Without the length of the body, which lasts until the connection closes. -/
  | unsized
  | chunked
  /-- With a length above that of the body. -/
  | truncated
  /-- The connection is closed without a reply. -/
  | close
  /-- No reply comes. -/
  | hang
  /-- Nothing listens. -/
  | refuse
deriving DecidableEq, Repr

structure ScriptedReply where
  text : String := ""
  status : Nat := 200
  conduct : Conduct := .plain
deriving DecidableEq, Repr, Inhabited

structure Server where
  address : Url
  replies : List ScriptedReply := []
  /-- The requests received, the latest one first. -/
  log : List HttpRequest := []
deriving Repr, Inhabited

/-- What reaches a client of a scripted reply. Some statuses stand for replies without a body. A
status that does not have three digits, or that announces another reply, is no reply at all. -/
def ScriptedReply.outcome (r : ScriptedReply) : HttpOutcome :=
  let isEmpty := [101, 204, 304].contains r.status
  let body := if isEmpty then [] else r.text.toUTF8.toList
  let reply (declaredLength : Option Nat) (isComplete : Bool) : HttpOutcome :=
    if r.status < 100 || 999 < r.status then .failed "invalid status"
    else if r.status < 200 && r.status ≠ 101 then .failed "no reply after the interim one"
    else .reply { status := r.status, declaredLength, chunks := [body], isComplete }
  match r.conduct with
  | .plain => reply (some body.length) true
  | .unsized => reply none true
  | .chunked => reply none true
  | .truncated => if isEmpty then reply (some 0) true else reply (some (body.length + 10)) false
  | .close => .failed "connection closed before message completed"
  | .hang => .timedOut
  | .refuse => .failed "connection refused"

namespace Server

def prepare (s : Server) (r : ScriptedReply) : Server := { s with replies := s.replies ++ [r] }

def listensAt (s : Server) (url : Url) : Bool :=
  s.address.scheme == url.scheme && s.address.host == url.host &&
    s.address.portNumber == url.portNumber

/-- Takes a request; without a reply left it fails. A refused request does not arrive. -/
def serve (s : Server) (request : HttpRequest) : Server × HttpOutcome :=
  match s.replies with
  | [] => ({ s with log := request :: s.log }, ScriptedReply.outcome { status := 500 })
  | r :: replies =>
    let log := if r.conduct = .refuse then s.log else request :: s.log
    ({ s with replies, log }, r.outcome)

def requests (s : Server) : List HttpRequest := s.log.reverse

end Server

/-- Posts a request to the server at its address. Only waiting in vain takes time. -/
def post (servers : List Server) (request : HttpRequest) (limitMs : Option Nat) :
    (HttpOutcome × Nat) × List Server :=
  match servers with
  | [] => ((.failed "connection refused", 0), [])
  | s :: rest =>
    if s.listensAt request.url then
      let (s, outcome) := s.serve request
      ((outcome, if outcome = .timedOut then limitMs.getD 0 else 0), s :: rest)
    else
      let (result, rest) := post rest request limitMs
      (result, s :: rest)

def network (config : Config) (node : Url) : Network (StateM (List Server)) where
  config
  node
  post request limitMs := modifyGet fun servers => post servers request limitMs

/-- Answers queries one after another in one session, each with a reply that is prepared at the
first server. A query that stays without an answer is not listed. -/
def answerAll (config : Config) (node : Url) (server : Server)
    (queries : List (Query × List ScriptedReply)) : List Reply × Server :=
  let answer (query : Query) (replies : List ScriptedReply) :
      StateT Session (StateM (List Server)) (Option Reply) := do
    modifyThe (List Server) fun servers =>
      servers.map fun s => replies.foldl Server.prepare s
    ((network config node).answer none query).run
  let ((answers, _), servers) :=
    (queries.mapM fun (query, replies) => answer query replies).run {} |>.run [server]
  (answers.filterMap id, servers.headD server)

end ComputeRelay.Rehearsal
