import Mathlib.Data.Nat.Notation

/-!
# The descriptor server

`Serve` gives a descriptor to a client that knows the nonce, and goes on after one that does not.

* `waitForFdCmd` is the loop around a system call, for any sequence of results.
* `handleConnection` compares the nonce with the bytes of one read, and `serve` goes through
  the connections in the order in which they are accepted.
* `fd_served` is about all sequences of clients whose bytes are all there when the server reads
  them, and a nonce that is shorter than the buffer. `nonce_misread` shows what happens
  otherwise.
-/

namespace FdServer

/-! ## Model -/

abbrev Bytes := List UInt8

inductive Status where
  | ok
  | deadlineExceeded
  | unauthenticated
  | invalidArgument
  /-- The code of an `errno`. -/
  | errno
  deriving DecidableEq

inductive Epoll where
  | ready
  | timeout
  | eintr
  | error

/-- One system call, and the `epoll_wait` if it would block. -/
inductive Attempt (α : Type) where
  | done (a : α)
  | eintr
  | eagain (wait : Epoll)
  | error

/-- Nothing is returned as long as the loop goes on. -/
def waitForFdCmd {α : Type} : List (Attempt α) → Option (Except Status α)
  | [] => none
  | .done a :: _ => some (.ok a)
  | .eintr :: l | .eagain .ready :: l | .eagain .eintr :: l => waitForFdCmd l
  | .eagain .timeout :: _ => some (.error .deadlineExceeded)
  | .eagain .error :: _ | .error :: _ => some (.error .errno)

/-- The size of the buffer for the nonce. -/
def bufSize : ℕ := 4096

/-- A server after `Init`, which does not accept an empty nonce. -/
structure Server where
  nonce : Bytes
  nonempty : nonce ≠ []
  dupFd : ℕ
  serveForever : Bool

/-- A connection: what its client ever sends, and how the system calls of the server end. -/
structure Connection where
  sent : Bytes
  accept : List (Attempt Unit)
  recvmsg : List (Attempt Bytes)
  /-- The client is still there when the server answers. -/
  connected : Bool

/-- What a client gets. -/
inductive Reply where
  | good (fd : ℕ)
  | bad
  | closed
  deriving DecidableEq

def handleConnection (s : Server) (c : Connection) : Option (Status × Reply) :=
  match waitForFdCmd c.recvmsg with
  | none => none
  | some (.error e) => some (e, .closed)
  | some (.ok query) =>
    if query ≠ s.nonce then some (.unauthenticated, .bad)
    else if c.connected then some (.ok, .good s.dupFd)
    else some (.errno, .closed)

/-- The connections that were answered, and the status if the loop has ended. -/
def serve (s : Server) : List Connection → List (Connection × Reply) × Option Status
  | [] => ([], none)
  | c :: cs =>
    match waitForFdCmd c.accept with
    | none => ([], none)
    | some (.error e) => ([], some e)
    | some (.ok ()) =>
      match handleConnection s c with
      | none => ([], none)
      | some (status, reply) =>
        if status = .unauthenticated ∨ status = .ok ∧ s.serveForever = true then
          let r := serve s cs
          ((c, reply) :: r.1, r.2)
        else ([(c, reply)], some status)

/-- What the client makes of the answer. -/
def getSharedFd (nonce : Bytes) (reply : Reply) : Except Status ℕ :=
  if nonce = [] then .error .invalidArgument
  else
    match reply with
    | .good fd => .ok fd
    | .bad | .closed => .error .invalidArgument

/-! ## Clients in time -/

def Attempt.Retried {α : Type} : Attempt α → Prop
  | .eintr | .eagain .ready | .eagain .eintr => True
  | _ => False

/-- The call succeeds before the timeout. -/
def InTime {α : Type} (l : List (Attempt α)) (a : α) : Prop :=
  ∃ retries rest, l = retries ++ .done a :: rest ∧ ∀ x ∈ retries, x.Retried

/-- All that the client sends is there when the server reads. -/
structure Connection.Whole (c : Connection) : Prop where
  accept : InTime c.accept ()
  recvmsg : InTime c.recvmsg (c.sent.take bufSize)

section

variable {s : Server} {c : Connection} {cs : List Connection}

theorem waitForFdCmd_of_inTime {α : Type} {l : List (Attempt α)} {a : α} (h : InTime l a) :
    waitForFdCmd l = some (.ok a) := by
  obtain ⟨retries, rest, rfl, hretries⟩ := h
  induction retries with
  | nil => rfl
  | cons x retries ih =>
    have hx := hretries x List.mem_cons_self
    have hrest := ih fun y hy => hretries y (List.mem_cons_of_mem _ hy)
    cases x with
    | done | error => exact hx.elim
    | eintr => exact hrest
    | eagain wait =>
      cases wait with
      | ready | eintr => exact hrest
      | timeout | error => exact hx.elim

/-- One read is enough for a nonce that is shorter than the buffer. -/
theorem take_eq_iff (hlen : s.nonce.length < bufSize) :
    c.sent.take bufSize = s.nonce ↔ c.sent = s.nonce := by
  constructor
  · intro h
    have hshort : c.sent.length ≤ bufSize := by
      have := congrArg List.length h
      rw [List.length_take] at this
      omega
    rw [← h, List.take_of_length_le hshort]
  · intro h
    rw [h, List.take_of_length_le (Nat.le_of_lt hlen)]

theorem handleConnection_whole (hlen : s.nonce.length < bufSize) (hc : c.Whole) :
    handleConnection s c = if c.sent ≠ s.nonce then some (.unauthenticated, .bad)
      else if c.connected then some (.ok, .good s.dupFd) else some (.errno, .closed) := by
  rw [handleConnection, waitForFdCmd_of_inTime hc.recvmsg]
  simp only [ne_eq, take_eq_iff hlen]

/-- A client with other bytes is answered, and the loop goes on. -/
theorem serve_other (hlen : s.nonce.length < bufSize) (hc : c.Whole) (hother : c.sent ≠ s.nonce) :
    serve s (c :: cs) = ((c, .bad) :: (serve s cs).1, (serve s cs).2) := by
  rw [serve, waitForFdCmd_of_inTime hc.accept, handleConnection_whole hlen hc, if_pos hother]
  rfl

theorem serve_good (hlen : s.nonce.length < bufSize)
    (hcs : ∀ c ∈ cs, c.Whole) {fd : ℕ} (h : (c, .good fd) ∈ (serve s cs).1) : c.sent = s.nonce := by
  induction cs with
  | nil => cases h
  | cons d cs ih =>
    have hd := hcs d List.mem_cons_self
    have hrest := ih fun c hc => hcs c (List.mem_cons_of_mem _ hc)
    by_cases hother : d.sent = s.nonce
    · rw [serve, waitForFdCmd_of_inTime hd.accept, handleConnection_whole hlen hd] at h
      grind
    · rw [serve_other hlen hd hother] at h
      rcases List.mem_cons.mp h with h | h
      · cases h
      · exact hrest h

/-- The descriptor is given only to clients that send the nonce, the others do not end the loop, and
the next client that asks with the nonce gets it. -/
theorem fd_served (hlen : s.nonce.length < bufSize) (hcs : ∀ c ∈ cs, c.Whole) :
    (∀ c fd, (c, .good fd) ∈ (serve s cs).1 → c.sent = s.nonce) ∧
    ((∀ c ∈ cs, c.sent ≠ s.nonce) → (serve s cs).2 = none ∧
      ∀ c : Connection, c.Whole → c.sent = s.nonce → c.connected = true →
        ∃ reply, (c, reply) ∈ (serve s (cs ++ [c])).1 ∧
          getSharedFd s.nonce reply = .ok s.dupFd) := by
  refine ⟨fun c fd => serve_good hlen hcs, fun hother => ?_⟩
  induction cs with
  | nil =>
    refine ⟨rfl, fun c hc hsent hconnected => ⟨.good s.dupFd, ?_, if_neg s.nonempty⟩⟩
    rw [List.nil_append, serve, waitForFdCmd_of_inTime hc.accept, handleConnection_whole hlen hc]
    simp only [hsent, ne_eq, not_true_eq_false, if_false, hconnected, if_true]
    split <;> exact List.mem_cons_self
  | cons d cs ih =>
    obtain ⟨hnone, hget⟩ := ih (fun c hc => hcs c (List.mem_cons_of_mem _ hc))
      fun c hc => hother c (List.mem_cons_of_mem _ hc)
    have hd := hcs d List.mem_cons_self
    have hd' := hother d List.mem_cons_self
    refine ⟨?_, fun c hc hsent hconnected => ?_⟩
    · rw [serve_other hlen hd hd']
      exact hnone
    · obtain ⟨reply, hmem, hfd⟩ := hget c hc hsent hconnected
      refine ⟨reply, ?_, hfd⟩
      rw [List.cons_append, serve_other hlen hd hd']
      exact List.mem_cons_of_mem _ hmem

end

/-- A client that sends some bytes, of which the server reads some. -/
def client (sent read : Bytes) : Connection := ⟨sent, [.eintr, .done ()], [.done read], true⟩

def server (nonce : Bytes) (h : nonce ≠ []) : Server := ⟨nonce, h, 5, false⟩

def shortServer : Server := server [1] (List.cons_ne_nil _ _)

theorem fd_served_after_bad :
    ∃ reply, (client [1] [1], reply) ∈ (serve shortServer [client [2] [2], client [1] [1]]).1 ∧
      getSharedFd [1] reply = .ok 5 := by
  have hwhole : ∀ b, (client [b] [b]).Whole := fun b =>
    ⟨⟨[.eintr], [], rfl, by simp [Attempt.Retried]⟩, [], [], rfl, by simp⟩
  have hbad : ∀ c ∈ [client [2] [2]], c.Whole := by
    simpa using hwhole 2
  exact ((fd_served (s := shortServer) (by decide) hbad).2
    (by simp [client, shortServer, server])).2 (client [1] [1]) (hwhole 1) rfl rfl

/-- A nonce that does not fit into the buffer is not recognised. -/
theorem long_nonce {nonce : Bytes} (h : nonce ≠ []) (hlen : bufSize < nonce.length) :
    (serve (server nonce h) [client nonce (nonce.take bufSize)]).1 =
      [(client nonce (nonce.take bufSize), .bad)] := by
  have hne : nonce.take bufSize ≠ nonce := by
    intro heq
    have := congrArg List.length heq
    rw [List.length_take] at this
    omega
  simp [serve, handleConnection, waitForFdCmd, client, server, hne]

/-- One byte more than the buffer has. -/
def longNonce : Bytes := List.replicate 4097 1

theorem longNonce_ne_nil : longNonce ≠ [] := List.cons_ne_nil _ _

/-- The server does not know a client with a long nonce, and it knows one that sends more than the
nonce if it reads in between. -/
theorem nonce_misread :
    (serve (server longNonce longNonce_ne_nil) [client longNonce (longNonce.take bufSize)]).1 =
      [(client longNonce (longNonce.take bufSize), .bad)] ∧
    (serve shortServer [client [1, 2] [1]]).1 = [(client [1, 2] [1], .good 5)] := by
  have hlen : bufSize < longNonce.length := by
    rw [longNonce, List.length_replicate]
    decide
  exact ⟨long_nonce longNonce_ne_nil hlen, rfl⟩

end FdServer
