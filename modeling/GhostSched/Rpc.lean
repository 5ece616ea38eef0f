import GhostSched.Lib.CString
import GhostSched.Lib.Transition
import Mathlib.Data.Int.Notation
import Mathlib.Data.Vector.Defs

/-!
# Buffers and responses of agent RPCs

What a handler puts into the shared memory of an `AgentProcess`, and what the caller gets
out of it.

* `copyString` cuts a string to an array, and `TrivialStatusOrString` stores the length of
  the string next to the array.
* `statusOrString_roundtrip` is about all statuses and strings. It says when a string comes
  out as it should: the stored length is not cut, see `statusOrString_overread`.
* `step` is a call of `RpcWithResponse`, or a change of the agent from outside.
* `response_isolated` is about all runs in which the enclave is online at each call. The
  response is not cleared for a call that finds it offline: `response_leaks`.
-/

namespace Rpc

open CString Transition

/-! ## Model of the statuses -/

inductive StatusCode where
  | ok | cancelled | unknown | invalidArgument | deadlineExceeded | notFound | alreadyExists
  | permissionDenied | resourceExhausted | failedPrecondition | aborted | outOfRange
  | unimplemented | internal | unavailable | dataLoss | unauthenticated
  deriving DecidableEq

/-- `absl::StatusOr<std::string>`, whose status is ok if it has a value. -/
inductive StatusOrString where
  | value (s : List UInt8)
  | error (code : StatusCode) (message : List UInt8) (h : code ≠ .ok)

/-- `kMaxErrorMessageSize` without the terminator. -/
def maxErrorMessage : ℕ := 999

/-- `kMaxStringSize` without the terminator. -/
def maxString : ℕ := 29999

/-- The array keeps what it held after the terminator. -/
def copyString {n : ℕ} (dest : List.Vector UInt8 (n + 1)) (s : List UInt8) :
    List.Vector UInt8 (n + 1) :=
  let charsToCopy := min n s.length
  ⟨s.take charsToCopy ++ 0 :: dest.toList.drop (charsToCopy + 1), by simp; omega⟩

structure TrivialStatus where
  code : StatusCode
  errorMessage : List.Vector UInt8 (maxErrorMessage + 1)

structure TrivialStatusOrString where
  status : TrivialStatus
  str : List.Vector UInt8 (maxString + 1)
  stringLength : ℕ

inductive Fault where
  | notSerialized
  /-- A read past the end of an array. -/
  | outOfBounds
  deriving DecidableEq

/-- A `std::string` made of a pointer into an array. -/
def cString {n : ℕ} (a : List.Vector UInt8 n) : Except Fault (List UInt8) :=
  if 0 ∈ a.toList then .ok (a.toList.takeWhile (· ≠ 0)) else .error .outOfBounds

/-- A `std::string` made of a pointer into an array and a length. -/
def chars {n : ℕ} (a : List.Vector UInt8 n) (length : ℕ) : Except Fault (List UInt8) :=
  if length ≤ n then .ok (a.toList.take length) else .error .outOfBounds

/-- The constructor, on memory that is not initialised. -/
def TrivialStatusOrString.ofStatusOr (mem : TrivialStatusOrString) :
    StatusOrString → TrivialStatusOrString
  | .value s => ⟨⟨.ok, copyString mem.status.errorMessage []⟩, copyString mem.str s, s.length⟩
  | .error code message _ => ⟨⟨code, copyString mem.status.errorMessage message⟩, mem.str, 0⟩

def TrivialStatusOrString.toStatusOr (t : TrivialStatusOrString) : Except Fault StatusOrString := do
  let message ← cString t.status.errorMessage
  if h : t.status.code = .ok then return .value (← chars t.str t.stringLength)
  else return .error t.status.code message h

/-- How objects of a trivially copyable type get into an array and out of it: copying the
bytes of one in, over whatever was there, and out again gives the object. -/
structure Copyable (T D : Type*) where
  copyIn : T → D → D
  copyOut : D → T
  copyOut_copyIn : ∀ t d, copyOut (copyIn t d) = t

/-- `data` is the array of bytes. -/
structure AgentRpcBuffer (D : Type*) where
  data : D
  stringLength : ℕ
  isSerialized : Bool

section Buffer

variable {D T : Type*} (c : Copyable T D)

/-- The size of `T` is checked at compile time. -/
def AgentRpcBuffer.serialize (b : AgentRpcBuffer D) (t : T) : AgentRpcBuffer D :=
  { b with data := c.copyIn t b.data, isSerialized := true }

def AgentRpcBuffer.deserialize (b : AgentRpcBuffer D) : Except Fault T :=
  if b.isSerialized then .ok (c.copyOut b.data) else .error .notSerialized

variable (c : Copyable TrivialStatusOrString D)

def AgentRpcBuffer.serializeStatusOrString (b : AgentRpcBuffer D) (mem : TrivialStatusOrString)
    (s : StatusOrString) : AgentRpcBuffer D :=
  b.serialize c (.ofStatusOr mem s)

def AgentRpcBuffer.deserializeStatusOrString (b : AgentRpcBuffer D) :
    Except Fault StatusOrString := do
  (← b.deserialize c).toStatusOr

end Buffer

/-! ## The round trip -/

section Strings

variable {n : ℕ} (dest : List.Vector UInt8 (n + 1)) (s : List UInt8)

theorem copyString_toList :
    (copyString dest s).toList = s.take n ++ 0 :: dest.toList.drop (min n s.length + 1) := by
  simp only [copyString, ← List.take_eq_take_min, List.Vector.toList_mk]

theorem cString_copyString : cString (copyString dest s) = .ok ((s.takeWhile (· ≠ 0)).take n) := by
  rw [cString, copyString_toList, if_pos (by simp), takeWhile_terminated]

/-- The stored length fits as long as the string does. -/
theorem chars_copyString (h : s.length ≤ n) : chars (copyString dest s) s.length = .ok s := by
  rw [chars, if_pos (Nat.le_succ_of_le h), copyString_toList, List.take_of_length_le h,
    List.take_left]

/-- One byte more than fits is still read inside the array, but it is the terminator. -/
theorem chars_copyString_terminator (h : s.length = n + 1) :
    chars (copyString dest s) s.length = .ok (s.take n ++ [0]) := by
  have hlen : (s.take n).length = n := List.length_take_of_le (by omega)
  have htake : ∀ rest, (s.take n ++ 0 :: rest).take (n + 1) = s.take n ++ [0] := by
    intro rest
    rw [List.take_append, hlen, List.take_of_length_le (by omega), Nat.add_sub_cancel_left]
    rfl
  rw [chars, if_pos (Nat.le_of_eq h), copyString_toList, h, htake]

end Strings

/-- What can be expected of the other side: the string, or as much of it as fits, or the error with
as much of its message as fits. -/
def StatusOrString.cuts : StatusOrString → List StatusOrString
  | .value s => [.value s, .value (s.take maxString)]
  | .error code message h => [.error code ((message.takeWhile (· ≠ 0)).take maxErrorMessage) h]

/-- A string fits with its terminator, or it brings the terminator along. -/
def StatusOrString.Fits : StatusOrString → Prop
  | .value s => s.length ≤ maxString ∨ s.length = maxString + 1 ∧ s.getLast? = some 0
  | .error _ _ _ => True

section

variable {D : Type*} (c : Copyable TrivialStatusOrString D) (b : AgentRpcBuffer D)
  (mem : TrivialStatusOrString)

/-- The object itself gets to the other side. -/
theorem deserialize_serialize (s : StatusOrString) :
    (b.serializeStatusOrString c mem s).deserializeStatusOrString c =
      (TrivialStatusOrString.ofStatusOr mem s).toStatusOr := by
  simp [AgentRpcBuffer.serializeStatusOrString, AgentRpcBuffer.deserializeStatusOrString,
    AgentRpcBuffer.serialize, AgentRpcBuffer.deserialize, c.copyOut_copyIn, bind, Except.bind]

/-- The string of an ok status is read with the length that was stored. -/
theorem toStatusOr_value (s : List UInt8) :
    (TrivialStatusOrString.ofStatusOr mem (.value s)).toStatusOr =
      (chars (copyString mem.str s) s.length).map .value := by
  simp only [TrivialStatusOrString.ofStatusOr, TrivialStatusOrString.toStatusOr,
    cString_copyString, bind, Except.bind, pure, Except.pure]
  cases chars (copyString mem.str s) s.length <;> rfl

/-- A status, or a string that fits, and no other string, comes out on the other side, whatever the
buffer held before. -/
theorem statusOrString_roundtrip (s : StatusOrString) : s.Fits ↔
      ∃ r ∈ s.cuts, (b.serializeStatusOrString c mem s).deserializeStatusOrString c = .ok r := by
  rw [deserialize_serialize]
  cases s with
  | value s =>
    rw [toStatusOr_value]
    simp only [StatusOrString.Fits, StatusOrString.cuts, List.mem_cons, List.not_mem_nil, or_false,
      exists_eq_or_imp, exists_eq_left]
    rcases Nat.lt_trichotomy s.length (maxString + 1) with hlt | heq | hgt
    · have hs := Nat.le_of_lt_succ hlt
      simp [chars_copyString _ s hs, hs, Except.map]
    · -- the last byte is replaced by the terminator
      have htake : s.take maxString = s.dropLast := by rw [List.dropLast_eq_take, heq]; rfl
      simp only [chars_copyString_terminator _ s heq, Except.map, Except.ok.injEq,
        StatusOrString.value.injEq, htake, List.append_right_eq_self]
      refine ⟨fun h => .inl ?_, fun h => .inr ⟨heq, ?_⟩⟩
      · obtain ⟨t, rfl⟩ := List.getLast?_eq_some_iff.mp (h.resolve_left (by omega)).2
        rw [List.dropLast_concat]
      · rw [← h.resolve_right (by simp), List.getLast?_concat]
    · simp only [chars, if_neg (Nat.not_le.mpr hgt), Except.map, reduceCtorEq, or_self, iff_false]
      omega
  | error code message hcode =>
    simp [TrivialStatusOrString.ofStatusOr, TrivialStatusOrString.toStatusOr, cString_copyString,
      StatusOrString.Fits, StatusOrString.cuts, hcode, bind, Except.bind, pure, Except.pure]

end

def blank : TrivialStatusOrString :=
  ⟨⟨.ok, List.Vector.replicate _ 0⟩, List.Vector.replicate _ 0, 0⟩

/-- A buffer that holds the object itself. -/
def direct : Copyable TrivialStatusOrString TrivialStatusOrString :=
  ⟨fun t _ => t, id, fun _ _ => rfl⟩

theorem statusOrString_roundtrip_nul :
    (AgentRpcBuffer.serializeStatusOrString direct ⟨blank, 0, false⟩ blank
      (.value [1, 0, 2])).deserializeStatusOrString direct = .ok (.value [1, 0, 2]) :=
  have hfits : StatusOrString.Fits (.value [1, 0, 2]) := .inl (by decide)
  let ⟨_, hr, hok⟩ := (statusOrString_roundtrip direct ⟨blank, 0, false⟩ blank _).1 hfits
  hok.trans (congrArg _ (by simpa [StatusOrString.cuts, maxString] using hr))

/-- With more bytes than the array has, the other side reads past it. -/
theorem statusOrString_overread :
    (AgentRpcBuffer.serializeStatusOrString direct ⟨blank, 0, false⟩ blank
      (.value (List.replicate 30001 1))).deserializeStatusOrString direct =
        .error .outOfBounds := by
  rw [deserialize_serialize]
  have hlong : ¬(List.replicate 30001 (1 : UInt8)).length ≤ maxString + 1 := by
    rw [List.length_replicate]
    decide
  generalize List.replicate 30001 (1 : UInt8) = s at hlong
  simp [TrivialStatusOrString.ofStatusOr, TrivialStatusOrString.toStatusOr, cString_copyString,
    chars, hlong, bind, Except.bind]

/-! ## Model of the calls -/

/-- The initial values of its fields are those of the fresh buffer and the code -1. -/
structure AgentRpcResponse (D : Type*) where
  responseCode : ℤ
  buffer : AgentRpcBuffer D

/-- `ENODEV`. -/
def enodev : ℤ := 19

/-- The full agent of the child, with a state `S` of its own. -/
structure Agent (S R A D : Type*) where
  isOnline : S → Bool
  rpcHandler : S → R → A → AgentRpcResponse D → S × AgentRpcResponse D
  /-- An array of zeros. -/
  zeros : D

section Calls

variable {S R A D : Type*}

/-- `AgentRpcResponse()`. -/
def Agent.fresh (agent : Agent S R A D) : AgentRpcResponse D := ⟨-1, ⟨agent.zeros, 0, false⟩⟩

/-- A call that has returned: the state of the agent in which it was handled, and its response. -/
structure Returned (S R A D : Type*) where
  agent : S
  req : R
  args : A
  response : AgentRpcResponse D

structure State (S R A D : Type*) where
  agent : S
  /-- `rpc_res_` in the shared memory. -/
  rpcRes : AgentRpcResponse D
  returned : List (Returned S R A D)

inductive Action (S R A : Type*) where
  | rpcWithResponse (req : R) (args : A)
  /-- The agent changes between two calls, or its enclave goes offline. -/
  | change (agent : S)

/-- What the handler thread makes of a request. -/
def Agent.handle (agent : Agent S R A D) (s : S) (res : AgentRpcResponse D) (req : R) (args : A) :
    S × AgentRpcResponse D :=
  if agent.isOnline s then agent.rpcHandler s req args agent.fresh
  else (s, { res with responseCode := -enodev })

def step (agent : Agent S R A D) (s : State S R A D) : Action S R A → Option (State S R A D)
  | .rpcWithResponse req args =>
    let r := agent.handle s.agent s.rpcRes req args
    some ⟨r.1, r.2, ⟨s.agent, req, args, r.2⟩ :: s.returned⟩
  | .change a => some { s with agent := a }

/-- Each call finds the enclave online. -/
def Online (agent : Agent S R A D) (s : State S R A D) : Action S R A → Prop
  | .rpcWithResponse _ _ => agent.isOnline s.agent = true
  | .change _ => True

variable {agent : Agent S R A D}

/-- Each response is what the handler makes of a fresh one, for the request, the arguments and
the state of the agent alone. -/
theorem response_isolated {s₀ s : State S R A D} (h₀ : s₀.returned = [])
    (h : StepsWhen (Online agent) (step agent) s₀ s) :
    ∀ r ∈ s.returned, r.response = (agent.rpcHandler r.agent r.req r.args agent.fresh).2 := by
  refine h.invariant (P := fun s => ∀ r ∈ s.returned,
    r.response = (agent.rpcHandler r.agent r.req r.args agent.fresh).2) ?_ (by simp [h₀])
  intro s a s' ih hok hstep
  cases a with
  | change a =>
    cases hstep
    exact ih
  | rpcWithResponse req args =>
    cases hstep
    intro r hr
    rcases List.mem_cons.mp hr with rfl | hr
    · -- the response is cleared before the handler gets it
      simp only [Agent.handle, if_pos (show agent.isOnline s.agent = true from hok)]
    · exact ih r hr

end Calls

/-- An agent whose state is whether it is online. Its handler returns the request as data. -/
def echo : Agent Bool ℕ Unit ℕ := ⟨id, fun s req _ _ => (s, ⟨0, ⟨req, 1, true⟩⟩), 0⟩

def start : State Bool ℕ Unit ℕ := ⟨true, echo.fresh, []⟩

theorem response_isolated_two_calls : ∃ s,
    exec (step echo) start [.rpcWithResponse 7 (), .rpcWithResponse 8 ()] = some s ∧
      s.returned.length = 2 ∧
      ∀ r ∈ s.returned, r.response = (echo.rpcHandler r.agent r.req r.args echo.fresh).2 :=
  ⟨_, rfl, rfl, response_isolated (show start.returned = [] from rfl)
    (.head (a := .rpcWithResponse 7 ()) rfl rfl (.head (a := .rpcWithResponse 8 ()) rfl rfl .refl))⟩

/-- Two runs end with the same request to an agent that has gone offline. One response has the data
of the earlier request of its run, and says that it is serialized. -/
theorem response_leaks : ∃ s s',
    exec (step echo) start [.rpcWithResponse 7 (), .change false, .rpcWithResponse 8 ()] = some s ∧
      exec (step echo) start [.change false, .rpcWithResponse 8 ()] = some s' ∧
      s.returned.head? = some ⟨false, 8, (), ⟨-enodev, ⟨7, 1, true⟩⟩⟩ ∧
      s'.returned.head? = some ⟨false, 8, (), ⟨-enodev, ⟨0, 0, false⟩⟩⟩ :=
  ⟨_, _, rfl, rfl, rfl, rfl⟩

end Rpc
