import OxmlMcp.Access.Guard
import OxmlMcp.Mpsc.Channel

/-!
# The HTTP+SSE bridge

Model of `src/transport/sse.rs`. The server holds a table of live sessions under a mutex; `GET /sse`
(`open_stream`) adds an entry and streams the session's events, `POST /messages/` (`post_message`)
looks a session up and puts one message into its inbox, and the SDK's service runs between the two
channels of a session in a task of its own.

Any number of handlers and services run at once. `Step` has one constructor for each atomic action:
what happens under the lock of the table is one step, and so is each operation on a channel; checks
of a request alone are one step, since nobody else can observe them. `GET`s and `POST`s are numbered
in the order they arrive; the channels that `GET` number `g` creates are those of `g`, and the table
maps an id to the number whose inbox it holds.

* `SessionStep`: what happens to one session but for the table: its service is spawned, receives,
  emits and quits; its stream yields events and is dropped, when its client hangs up or it is over.
* `PostStep`: what a `POST` does on its own: the checks, the lookup, the answers. Its only effect on
  others is `Step.send`.
* A handler of `GET /sse` awaits nothing, so it is never dropped half way. A `POST` awaits its body
  and then `inbox.send`, and may be dropped at either (`PostStep.dropEntered`, `PostStep.dropSent`).

Fresh uuids, a factory that returns, and a response body that drops its stream when it is dropped are
built in. So is a query that names a session: a `POST` without one is answered `400` by the framework
and never gets here. Keep-alive comments are no events and are left out, and so are the tokens that
ask a service to stop, since a service may quit at any time; it then lets go of both its channels
(`SessionStep.dropInbox`), and receives and emits no more.
-/

namespace OxmlMcp.Sse
open OxmlMcp.Lts OxmlMcp.Http OxmlMcp.Access OxmlMcp.Mpsc

/-- `MESSAGE_PATH`: where the client's messages are posted. -/
def MESSAGE_PATH : String := "/messages/"

/-- The buffer of both channels of a session. -/
def bufferSize : Nat := 32

/-- The longest body that the framework hands to a handler: its default, 2 MiB. -/
def BODY_LIMIT : Nat := 2 * 1024 * 1024

/-- What the two handlers share (`SseState`), with the JSON functions they call. -/
structure Server (Msg Reply : Type) where
  http : Parsers
  guard : Guard
  maxSessions : Nat
  /-- `serde_json::from_slice`, with the text of its error. -/
  fromSlice : List UInt8 → Except String Msg
  /-- `serde_json::to_string`. -/
  toJson : Reply → Option String
  /-- What the framework answers a body past its limit with. -/
  lengthLimit : String

/-- A server-sent event. -/
structure Event where
  event : String
  data : String
deriving DecidableEq, Repr

/-- The first event of a stream, naming where the session's messages are posted. -/
def endpointEvent (id : String) : Event :=
  ⟨"endpoint", MESSAGE_PATH ++ "?sessionId=" ++ id⟩

/-- The event carrying one message of the server. -/
def messageEvent (json : String) : Event :=
  ⟨"message", json⟩

/-- How far a session is. -/
inductive Stage where
  /-- The channels and the id exist; the table has not been asked. -/
  | opening
  /-- The table took it in: the slot belongs to the handler. -/
  | admitted
  /-- The service runs; the slot still belongs to the handler. -/
  | spawned
  /-- The response streams; the slot belongs to the `SessionGuard` in it. -/
  | streaming
  /-- A message did not serialise: the stream yielded an error and is read no more. -/
  | failed
  /-- The events are dropped and the guard is about to be. -/
  | hungUp
  /-- The guard is dropped. -/
  | closed
deriving DecidableEq, Repr

/-- The stages in which the table holds the session's slot. -/
def Stage.Listed : Stage → Prop
  | .opening => False
  | .closed => False
  | _ => True

/-- The stages in which the service has been spawned. -/
def Stage.Serving : Stage → Prop
  | .opening => False
  | .admitted => False
  | _ => True

/-- One session: its id and its two channels, the inbox that `POST`s send to and the outbox its
service emits to. -/
structure Session (Msg Reply : Type) where
  id : String
  stage : Stage
  inbox : Chan Nat Msg
  outbox : Chan Unit Reply
  /-- Whether the endpoint event is still to be read. -/
  endpoint : Bool

variable {Msg Reply : Type}

/-- A session as `open_stream` sets it up. -/
def Session.new (id : String) : Session Msg Reply where
  id := id
  stage := .opening
  inbox := channel bufferSize
  outbox := channel bufferSize
  endpoint := true

/-- How far a `GET /sse` is. -/
inductive GetPhase (Msg Reply : Type) where
  | entered
  | refused (r : Refusal)
  | opened (x : Session Msg Reply)

/-- A `GET /sse`. -/
structure Get (Msg Reply : Type) where
  headers : HeaderMap
  phase : GetPhase Msg Reply

/-- A request to the message endpoint: its headers, `?sessionId=` and body. -/
structure PostRequest where
  headers : HeaderMap
  sessionId : String
  body : List UInt8

/-- How far a `POST /messages/` is. -/
inductive PostPhase (Msg : Type) where
  /-- Arrived; its body is being read. -/
  | entered
  /-- Past the checks, with its message. -/
  | parsed (m : Msg)
  /-- Holding a clone of the inbox of `GET` number `g`. -/
  | holding (g : Nat) (m : Msg)
  /-- The message is in that inbox; the send awaits its flush. -/
  | sent (g : Nat)
  | answered (r : StatusCode × String)
  | dropped

/-- A `POST /messages/`. -/
structure Post (Msg : Type) where
  request : PostRequest
  phase : PostPhase Msg

/-- The table of live sessions. -/
abbrev Sessions := List (String × Nat)

/-- `HashMap::insert`. -/
def Sessions.insert (t : Sessions) (id : String) (g : Nat) : Sessions :=
  (id, g) :: t.filter (·.1 != id)

/-- `HashMap::remove`. -/
def Sessions.remove (t : Sessions) (id : String) : Sessions :=
  t.filter (·.1 != id)

/-- `HashMap::get`. -/
def Sessions.get (t : Sessions) (id : String) : Option Nat :=
  (t.find? (·.1 == id)).map (·.2)

/-- Record a new session's inbox, unless `max` sessions are already open. -/
def admitSession (sessions : Sessions) (max : Nat) (id : String) (inbox : Nat) :
    Except Refusal Sessions :=
  if sessions.length ≥ max then
    .error (.serviceUnavailable,
      "the server holds its session limit; close a session or retry later")
  else
    .ok (sessions.insert id inbox)

/-- The body as the framework hands it to `post_message`, which is not called past the limit. -/
def takeBody (srv : Server Msg Reply) (body : List UInt8) : Except Refusal (List UInt8) :=
  if BODY_LIMIT < body.length then .error (.payloadTooLarge, srv.lengthLimit) else .ok body

/-- What happens to a `POST` before it takes the lock: its body is taken, then come the guard, the
media type and the JSON. -/
def postChecks (srv : Server Msg Reply) (req : PostRequest) : Except Refusal Msg := do
  let body ← takeBody srv req.body
  srv.guard.check srv.http req.headers
  requireJson req.headers
  match srv.fromSlice body with
  | .ok m => return m
  | .error e => throw (.badRequest, "invalid JSON-RPC: " ++ e)

/-- The state of the server. -/
structure State (Msg Reply : Type) where
  sessions : Sessions
  gets : List (Get Msg Reply)
  posts : List (Post Msg)

/-- No session and no request. -/
def init : State Msg Reply := ⟨[], [], []⟩

/-- The session a `GET` has set up. -/
def Get.session (y : Get Msg Reply) : Option (Session Msg Reply) :=
  match y.phase with
  | .opened x => some x
  | _ => none

/-- The session that `GET` number `g` has set up. -/
def State.session (s : State Msg Reply) (g : Nat) : Option (Session Msg Reply) :=
  s.gets[g]?.bind Get.session

/-- An id no session has had. -/
def State.Fresh (s : State Msg Reply) (id : String) : Prop :=
  ∀ g x, s.session g = some x → x.id ≠ id

/-- `GET` number `g` moves on. -/
def State.setGet (s : State Msg Reply) (g : Nat) (y : Get Msg Reply) : State Msg Reply :=
  { s with gets := s.gets.set g y }

/-- `POST` number `p` moves on. -/
def State.setPost (s : State Msg Reply) (p : Nat) (q : Post Msg) : State Msg Reply :=
  { s with posts := s.posts.set p q }

/-- What happens to one session without the table. -/
inductive SessionAct (Msg Reply : Type) where
  | spawn
  | respond
  | endpoint (e : Event)
  | message (r : Reply) (e : Event)
  | fail (r : Reply)
  | hangUp
  | recv (p : Nat) (m : Msg)
  | emit (r : Reply)
  | dropInbox

/-- One step of one session without the table. -/
inductive SessionStep (srv : Server Msg Reply) :
    Session Msg Reply → SessionAct Msg Reply → Session Msg Reply → Prop where
  | spawn {x} :
    x.stage = .admitted →
    SessionStep srv x .spawn { x with stage := .spawned }
  | respond {x} :
    x.stage = .spawned →
    SessionStep srv x .respond { x with stage := .streaming }
  | endpoint {x} :
    x.stage = .streaming →
    x.endpoint = true →
    SessionStep srv x (.endpoint (endpointEvent x.id)) { x with endpoint := false }
  | message {x r json outbox} :
    x.stage = .streaming →
    x.endpoint = false →
    -- the outbox has one sender, so there is no choice whom to unpark
    x.outbox.nextMessage 0 = some (((), r), outbox) →
    srv.toJson r = some json →
    SessionStep srv x (.message r (messageEvent json)) { x with outbox := outbox }
  | fail {x r outbox} :
    x.stage = .streaming →
    x.endpoint = false →
    x.outbox.nextMessage 0 = some (((), r), outbox) →
    srv.toJson r = none →
    SessionStep srv x (.fail r) { x with outbox := outbox, stage := .failed }
  | hangUp {x} :
    x.stage = .streaming ∨ x.stage = .failed →
    SessionStep srv x .hangUp { x with outbox := x.outbox.close, stage := .hungUp }
  | recv {x p m k inbox} :
    x.stage.Serving →
    x.inbox.nextMessage k = some ((p, m), inbox) →
    SessionStep srv x (.recv p m) { x with inbox := inbox }
  | emit {x r outbox} :
    x.stage.Serving →
    -- the service has not quit
    x.inbox.isOpen = true →
    x.outbox.Flushed () →
    x.outbox.startSend () r = some outbox →
    SessionStep srv x (.emit r) { x with outbox := outbox }
  | dropInbox {x} :
    x.stage.Serving →
    x.inbox.isOpen = true →
    SessionStep srv x .dropInbox { x with inbox := x.inbox.close }

/-- What a `POST` does on its own. -/
inductive PostAct where
  | refuse
  | parse
  | miss
  | hit (g : Nat)
  | gone
  | flush
  | drop
deriving DecidableEq, Repr

/-- One step of `POST` number `p` that only reads what it shares with others. -/
inductive PostStep (srv : Server Msg Reply) (s : State Msg Reply) (p : Nat) :
    Post Msg → PostAct → PostPhase Msg → Prop where
  | refuse {req r} :
    postChecks srv req = .error r →
    PostStep srv s p ⟨req, .entered⟩ .refuse (.answered r)
  | parse {req m} :
    postChecks srv req = .ok m →
    PostStep srv s p ⟨req, .entered⟩ .parse (.parsed m)
  | miss {req m} :
    s.sessions.get req.sessionId = none →
    PostStep srv s p ⟨req, .parsed m⟩ .miss (.answered (.notFound, "no such session"))
  | hit {req m g} :
    s.sessions.get req.sessionId = some g →
    PostStep srv s p ⟨req, .parsed m⟩ (.hit g) (.holding g m)
  | gone {req g m x} :
    s.session g = some x →
    x.inbox.isOpen = false →
    PostStep srv s p ⟨req, .holding g m⟩ .gone (.answered (.gone, "session closed"))
  | flush {req g x} :
    s.session g = some x →
    -- a flush that finds the receiver gone counts as done
    x.inbox.Flushed p →
    PostStep srv s p ⟨req, .sent g⟩ .flush (.answered (.accepted, ""))
  | dropEntered {req} :
    PostStep srv s p ⟨req, .entered⟩ .drop .dropped
  | dropSent {req g} :
    PostStep srv s p ⟨req, .sent g⟩ .drop .dropped

/-- The atomic actions, by the number of the request that takes them or whose session does. -/
inductive Act (Msg Reply : Type) where
  | getEnter (headers : HeaderMap)
  | getForbid (g : Nat)
  | getOpen (g : Nat) (id : String)
  | getFull (g : Nat)
  | getAdmit (g : Nat)
  | session (g : Nat) (a : SessionAct Msg Reply)
  | dropGuard (g : Nat)
  | postEnter (req : PostRequest)
  | post (p : Nat) (a : PostAct)
  | send (p : Nat) (g : Nat) (m : Msg)

/-- One atomic step of the server. -/
inductive Step (srv : Server Msg Reply) :
    State Msg Reply → Act Msg Reply → State Msg Reply → Prop where
  | getEnter {s headers} :
    Step srv s (.getEnter headers) { s with gets := s.gets ++ [⟨headers, .entered⟩] }
  | getForbid {s g headers r} :
    s.gets[g]? = some ⟨headers, .entered⟩ →
    srv.guard.check srv.http headers = .error r →
    Step srv s (.getForbid g) (s.setGet g ⟨headers, .refused r⟩)
  | getOpen {s g headers id} :
    s.gets[g]? = some ⟨headers, .entered⟩ →
    srv.guard.check srv.http headers = .ok () →
    s.Fresh id →
    Step srv s (.getOpen g id) (s.setGet g ⟨headers, .opened (.new id)⟩)
  | getFull {s g headers x r} :
    s.gets[g]? = some ⟨headers, .opened x⟩ →
    x.stage = .opening →
    admitSession s.sessions srv.maxSessions x.id g = .error r →
    Step srv s (.getFull g) (s.setGet g ⟨headers, .refused r⟩)
  | getAdmit {s g headers x t} :
    s.gets[g]? = some ⟨headers, .opened x⟩ →
    x.stage = .opening →
    admitSession s.sessions srv.maxSessions x.id g = .ok t →
    Step srv s (.getAdmit g)
      { s.setGet g ⟨headers, .opened { x with stage := .admitted }⟩ with sessions := t }
  | session {s g headers x a x'} :
    s.gets[g]? = some ⟨headers, .opened x⟩ →
    SessionStep srv x a x' →
    Step srv s (.session g a) (s.setGet g ⟨headers, .opened x'⟩)
  | dropGuard {s g headers x} :
    s.gets[g]? = some ⟨headers, .opened x⟩ →
    x.stage = .hungUp →
    Step srv s (.dropGuard g)
      { s.setGet g ⟨headers, .opened { x with stage := .closed }⟩ with
        sessions := s.sessions.remove x.id }
  | postEnter {s req} :
    Step srv s (.postEnter req) { s with posts := s.posts ++ [⟨req, .entered⟩] }
  | post {s p q a phase} :
    s.posts[p]? = some q →
    PostStep srv s p q a phase →
    Step srv s (.post p a) (s.setPost p { q with phase := phase })
  | send {s p req g m headers x inbox} :
    s.posts[p]? = some ⟨req, .holding g m⟩ →
    s.gets[g]? = some ⟨headers, .opened x⟩ →
    x.inbox.startSend p m = some inbox →
    Step srv s (.send p g m)
      ((s.setGet g ⟨headers, .opened { x with inbox := inbox }⟩).setPost p ⟨req, .sent g⟩)

/-- A server on the loopback interface that holds one session, whose client sends texts and whose
service emits them: the server of the concrete runs below. -/
def Server.sample : Server String String where
  http := .sample
  guard := .forBindHost "127.0.0.1"
  maxSessions := 1
  fromSlice body := .ok (.ofList (body.map fun b => Char.ofNat b.toNat))
  toJson := some
  lengthLimit := "length limit exceeded"

/-- The same server, holding two sessions. -/
def Server.pair : Server String String :=
  { Server.sample with maxSessions := 2 }

/-- The headers of a local client. -/
def localHeaders : HeaderMap :=
  [(HOST, .ofStr "localhost"), (CONTENT_TYPE, .ofStr "application/json")]

end OxmlMcp.Sse
