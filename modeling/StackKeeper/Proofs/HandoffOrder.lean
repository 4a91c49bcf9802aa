import StackKeeper.Follow.Handoff
/-!
# The handoff queue as a queue without a bound

A full buffer defers what is submitted and lets it move up when a slot is freed. Neither end can tell:
whoever submits is never held up, and whoever receives gets the requests in the order in which they were
submitted, from the first to the last, also after the last sender is gone.

Results:
* `serve_line`: a use of the queue gets the reply that a queue without a bound gives.
* `run_line`: so does every sequence of uses.
* `fifo_of_uses`: what was submitted is what was received and what still waits, in this order.
-/
namespace StackKeeper

namespace Handoff

/-- One use of the queue, from either of its ends. -/
inductive Use where
  | submit (r : FollowRequest)
  | receive
  | tryReceive
  | dropSender

inductive Reply where
  | done
  | received (x : Received)
  | tried (r : Option FollowRequest)

def Reply.request? : Reply → Option FollowRequest
  | .received (.request r) => some r
  | .tried r => r
  | .done | .received .closed | .received .waiting => none

/-- The replies to a sequence of uses, and what they leave. -/
def run {σ : Type} (serve : σ → Use → Reply × σ) (s : σ) : List Use → List Reply × σ
  | [] => ([], s)
  | u :: us => ((serve s u).1 :: (run serve (serve s u).2 us).1, (run serve (serve s u).2 us).2)

def taken (replies : List Reply) : List FollowRequest := replies.filterMap Reply.request?

theorem taken_cons (reply : Reply) (replies : List Reply) :
    taken (reply :: replies) = reply.request?.toList ++ taken replies := by
  rw [taken, List.filterMap_cons]
  cases reply.request? <;> rfl

/-- The requests that were submitted, in their order; nobody submits when the last sender is gone. -/
def submitted : List Use → List FollowRequest
  | [] => []
  | .submit r :: us => r :: submitted us
  | .dropSender :: _ => []
  | .receive :: us | .tryReceive :: us => submitted us

end Handoff

open Handoff (Use Reply Received run taken submitted)

/-! ## A queue without a bound -/

/-- What waits, oldest first, and whether more can come. -/
structure Line where
  waiting : List FollowRequest
  hasSender : Bool

namespace Line

variable {q : Line} {u : Use} {us : List Use}

def empty : Line := ⟨[], true⟩

/-- What a receiver that waits gets. -/
def next (q : Line) : Received :=
  match q.waiting with
  | r :: _ => .request r
  | [] => if q.hasSender then .waiting else .closed

/-- The reply to a use and the queue after it. -/
def serve (q : Line) : Use → Reply × Line
  | .submit r => (.done, if q.hasSender then { q with waiting := q.waiting ++ [r] } else q)
  | .receive => (.received q.next, { q with waiting := q.waiting.tail })
  | .tryReceive => (.tried q.waiting.head?, { q with waiting := q.waiting.tail })
  | .dropSender => (.done, { q with hasSender := false })

theorem next_eq_closed_iff : q.next = .closed ↔ q.waiting = [] ∧ q.hasSender = false := by
  obtain ⟨waiting, hasSender⟩ := q
  cases waiting <;> cases hasSender <;> simp [next]

/-- A receiver that waits is served like one that does not, as far as requests go. -/
theorem request?_next (q : Line) : (Reply.received q.next).request? = q.waiting.head? := by
  obtain ⟨waiting, hasSender⟩ := q
  cases waiting <;> cases hasSender <;> rfl

/-- What waits, and what the uses to come submit. -/
def ahead (q : Line) (us : List Use) : List FollowRequest :=
  q.waiting ++ if q.hasSender then submitted us else []

/-- A use hands out the first of what is ahead, or nothing. -/
theorem ahead_serve (q : Line) (u : Use) (us : List Use) :
    (q.serve u).1.request?.toList ++ (q.serve u).2.ahead us = q.ahead (u :: us) := by
  have hhead : q.waiting.head?.toList ++ q.waiting.tail = q.waiting := by
    cases q.waiting <;> rfl
  cases u with
  | submit r => cases hs : q.hasSender <;> simp [serve, ahead, Reply.request?, submitted, hs]
  | receive =>
    rw [serve, request?_next, ahead, ahead, ← List.append_assoc, hhead, submitted]
  | tryReceive =>
    rw [serve, Reply.request?, ahead, ahead, ← List.append_assoc, hhead, submitted]
  | dropSender => simp [serve, ahead, Reply.request?, submitted]

theorem taken_append_waiting (q : Line) (us : List Use) :
    taken (run serve q us).1 ++ (run serve q us).2.waiting = q.ahead us := by
  induction us generalizing q with
  | nil => simp [run, taken, ahead, submitted]
  | cons u us ih =>
    rw [← ahead_serve, ← ih, ← List.append_assoc, ← Handoff.taken_cons]
    rfl

theorem hasSender_run (q : Line) (us : List Use) :
    (run serve q us).2.hasSender = false ↔ q.hasSender = false ∨ .dropSender ∈ us := by
  induction us generalizing q with
  | nil => simp [run]
  | cons u us ih =>
    rw [run, ih]
    cases u with
    | submit r => cases hs : q.hasSender <;> simp [serve, hs]
    | receive | tryReceive | dropSender => simp [serve]

end Line

/-! ## What the bound changes -/

namespace Handoff

variable {h : Handoff}

/-- The queue as neither end can tell it from one without a bound. -/
def line (h : Handoff) : Line := ⟨h.toList, h.hasSender⟩

theorem line_refill (h : Handoff) : h.refill.line = h.line := by
  rw [line, line, toList_refill]
  rfl

/-- Submitting a request changes nothing but what waits. -/
theorem submit_ends (h : Handoff) (r : FollowRequest) :
    (h.submit r).capacity = h.capacity ∧ (h.submit r).hasSender = h.hasSender ∧
      (h.submit r).hasReceiver = h.hasReceiver := by
  rw [submit]
  split
  · split <;> exact ⟨rfl, rfl, rfl⟩
  · exact ⟨rfl, rfl, rfl⟩

theorem takeNext_of_nil (hb : h.buffer = []) : h.takeNext = (none, h) := by
  rw [takeNext, hb]

theorem takeNext_of_cons {r : FollowRequest} {rest : List FollowRequest} (hb : h.buffer = r :: rest) :
    h.takeNext = (some r, { h with buffer := rest }.refill) := by
  rw [takeNext, hb]

theorem receive_of_nil (hb : h.buffer = []) :
    h.receive = (if h.hasSender then .waiting else .closed, h) := by
  rw [receive, takeNext_of_nil hb]

theorem receive_of_cons {r : FollowRequest} {rest : List FollowRequest} (hb : h.buffer = r :: rest) :
    h.receive = (.request r, { h with buffer := rest }.refill) := by
  rw [receive, takeNext_of_cons hb]

theorem receive_snd (h : Handoff) : h.receive.2 = h.takeNext.2 := by
  cases hb : h.buffer with
  | nil => rw [receive_of_nil hb, takeNext_of_nil hb]
  | cons r rest => rw [receive_of_cons hb, takeNext_of_cons hb]

/-- The reply to a use and the queue after it, when the deferred requests have moved up. -/
def serve (h : Handoff) : Use → Reply × Handoff
  | .submit r => (.done, h.submit r)
  | .receive => (.received h.receive.1, h.receive.2)
  | .tryReceive => (.tried h.takeNext.1, h.takeNext.2)
  | .dropSender => (.done, h.dropSender)

theorem isSettled_ofCapacity (n : Nat) : (ofCapacity n).IsSettled :=
  ⟨Nat.zero_le _, fun h => absurd rfl h⟩

theorem IsSettled.submit (hs : h.IsSettled) (r : FollowRequest) : (h.submit r).IsSettled := by
  obtain ⟨hfits, hfull⟩ := hs
  rw [Handoff.submit]
  split
  · split
    · rename_i hf
      exact ⟨hfits, fun _ => Nat.le_antisymm hfits (by simpa [isFull] using hf)⟩
    · rename_i hf
      have hfree : h.buffer.length < h.capacity := by simpa [isFull] using hf
      refine ⟨by rw [List.length_append]; exact hfree, fun hd => ?_⟩
      exact absurd (hfull hd) (Nat.ne_of_lt hfree)
  · exact ⟨hfits, hfull⟩

/-- Whatever is still deferred found no free slot. -/
theorem isSettled_refill (hfits : h.buffer.length ≤ h.capacity) : h.refill.IsSettled := by
  constructor
  · simp only [refill, List.length_append, List.length_take]
    omega
  · intro hd
    simp only [refill, ne_eq, List.drop_eq_nil_iff] at hd
    simp only [refill, List.length_append, List.length_take]
    omega

theorem IsSettled.takeNext (hs : h.IsSettled) : h.takeNext.2.IsSettled := by
  rw [Handoff.takeNext]
  split
  · exact hs
  · rename_i r rest hb
    refine isSettled_refill ?_
    have hfits := hs.1
    rw [hb, List.length_cons] at hfits
    exact Nat.le_of_succ_le hfits

/-- The receiver is there, and the queue has settled. -/
structure Serves (n : Nat) (h : Handoff) : Prop where
  capacity_eq : h.capacity = max n 1
  hasReceiver : h.hasReceiver = true
  settled : h.IsSettled

theorem serves_ofCapacity (n : Nat) : (ofCapacity n).Serves n :=
  ⟨rfl, rfl, isSettled_ofCapacity n⟩

theorem Serves.serve {n : Nat} (hs : h.Serves n) (u : Use) : (h.serve u).2.Serves n := by
  obtain ⟨hc, hr, hset⟩ := hs
  have htaken : h.takeNext.2.Serves n := by
    refine ⟨?_, ?_, hset.takeNext⟩ <;> rw [Handoff.takeNext] <;> split <;> assumption
  cases u with
  | submit r =>
    obtain ⟨hcap, -, hrecv⟩ := submit_ends h r
    exact ⟨hcap.trans hc, hrecv.trans hr, hset.submit r⟩
  | receive => rw [Handoff.serve, receive_snd]; exact htaken
  | tryReceive => exact htaken
  | dropSender => exact ⟨hc, hr, hset⟩

/-- In a queue that has settled nothing waits behind an empty buffer. -/
theorem Serves.deferred_eq_nil {n : Nat} (hs : h.Serves n) (hb : h.buffer = []) :
    h.deferred = [] := by
  refine Classical.byContradiction fun hd => ?_
  have hfull := hs.settled.2 hd
  have hc := hs.capacity_eq
  rw [hb, List.length_nil] at hfull
  omega

/-- Neither end sees the bound. -/
theorem serve_line {n : Nat} (hs : h.Serves n) (u : Use) :
    h.line.serve u = ((h.serve u).1, (h.serve u).2.line) := by
  cases u with
  | submit r =>
    cases hsend : h.hasSender with
    | true =>
      have ho : (h.hasSender && h.hasReceiver) = true := by rw [hsend, hs.hasReceiver]; rfl
      simp [serve, line, Line.serve, toList_submit r hs.settled ho, (submit_ends h r).2.1, hsend]
    | false => simp [serve, line, Line.serve, submit, hsend]
  | receive =>
    cases hb : h.buffer with
    | nil =>
      rw [serve, receive_of_nil hb, line, Line.serve, Line.next, toList, hb, hs.deferred_eq_nil hb]
      rfl
    | cons r rest =>
      rw [serve, receive_of_cons hb, line_refill, line, line, toList, toList, hb]
      rfl
  | tryReceive =>
    cases hb : h.buffer with
    | nil =>
      rw [serve, takeNext_of_nil hb, line, Line.serve, toList, hb, hs.deferred_eq_nil hb]
      rfl
    | cons r rest =>
      rw [serve, takeNext_of_cons hb, line_refill, line, line, toList, toList, hb]
      rfl
  | dropSender => rfl

/-- A sequence of uses gets the replies that a queue without a bound gives, and leaves what that one
would hold. -/
theorem run_line {n : Nat} (hs : h.Serves n) (us : List Use) :
    (run serve h us).1 = (run Line.serve h.line us).1 ∧
      (run serve h us).2.line = (run Line.serve h.line us).2 ∧ (run serve h us).2.Serves n := by
  induction us generalizing h with
  | nil => exact ⟨rfl, rfl, hs⟩
  | cons u us ih =>
    obtain ⟨hreplies, hrest, hserves⟩ := ih (hs.serve u)
    simp only [run, serve_line hs u]
    exact ⟨congrArg _ hreplies, hrest, hserves⟩

/-- Whatever the capacity and however the queue is used, its users get the replies of a queue without a
bound. What was received so far and what the buffer and then the deferred requests hold is what was
submitted, in this order; the buffer keeps to the capacity and requests are deferred only while it is
full; and a receiver learns that the queue is closed exactly when the sender is gone and it has received
all that was submitted. -/
theorem fifo_of_uses (n : Nat) (us : List Use) :
    ∃ replies h, run serve (ofCapacity n) us = (replies, h) ∧
      replies = (run Line.serve .empty us).1 ∧
      submitted us = taken replies ++ (h.buffer ++ h.deferred) ∧
      h.buffer.length ≤ max n 1 ∧ (h.deferred ≠ [] → h.buffer.length = max n 1) ∧
      (h.receive.1 = .closed ↔ .dropSender ∈ us ∧ taken replies = submitted us) := by
  obtain ⟨hreplies, hline, hserves⟩ := run_line (serves_ofCapacity n) us
  have hempty : (ofCapacity n).line = .empty := rfl
  rw [hempty] at hreplies hline
  generalize run serve (ofCapacity n) us = result at *
  obtain ⟨replies, h⟩ := result
  obtain rfl : replies = (run Line.serve .empty us).1 := hreplies
  have hall : taken (run Line.serve .empty us).1 ++ h.toList = submitted us := by
    have hw := Line.taken_append_waiting .empty us
    rw [← hline] at hw
    exact hw
  refine ⟨_, h, rfl, rfl, hall.symm, hserves.capacity_eq ▸ hserves.settled.1,
    hserves.capacity_eq ▸ hserves.settled.2, ?_⟩
  have hclosed : h.receive.1 = .closed ↔ h.toList = [] ∧ h.hasSender = false := by
    have hreply := congrArg Prod.fst (serve_line hserves .receive)
    simp only [serve, Line.serve, Reply.received.injEq] at hreply
    rw [← hreply, Line.next_eq_closed_iff]
    rfl
  have hsender : h.hasSender = false ↔ .dropSender ∈ us := by
    have hrun := Line.hasSender_run .empty us
    rw [← hline] at hrun
    simpa [line, Line.empty] using hrun
  rw [hclosed, hsender, ← hall, and_comm]
  simp

end Handoff
end StackKeeper
