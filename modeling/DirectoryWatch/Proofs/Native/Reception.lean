import DirectoryWatch.Proofs.Session.Reading
import DirectoryWatch.Proofs.Trace
import Mathlib.Data.List.Induction

/-!
# Reading while others send

A read of a handle takes one message after the other, and others may send, or go away, between any
two of them. Left alone, it takes what `Handle.readPending` takes at once. However it is disturbed,
the reads of a handle together give out what was sent, in order and once each, and a lost connection
is told of after everything else.
-/

namespace DirectoryWatch.Native

/-- What a look at the messages of a handle finds. -/
inductive Find where
  | message (message : Message)
  | empty
  | disconnected

/-- Takes the first message. That the sending side is gone shows only when no message is left. -/
def Handle.takeOne (h : Handle) : Find × Handle :=
  match h.pending with
  | m :: rest => (.message m, { h with pending := rest })
  | [] => (if h.connected then .empty else .disconnected, h)

/-- What a read under way has handed over so far, and its count. -/
structure Progress where
  records : List Record
  count : Nat

/-- What a read handed over, and how it ended. -/
structure Reply where
  records : List Record
  result : Except ReadFault Nat
  deriving DecidableEq

/-- What a read took from the handle. -/
def Reply.messages (a : Reply) : List Message :=
  match a.result with
  | .error (.native e) => a.records.map .record ++ [.error e]
  | .error .disconnected | .ok _ => a.records.map .record

/-- A handle, and the read of it that is under way. -/
structure Reader where
  handle : Handle
  progress : Option Progress

namespace Reader

def start (h : Handle) : Reader := ⟨h, none⟩

/-! ## Acts -/

inductive Act where
  | send (message : Message)
  /-- The sending side goes away. -/
  | sever
  /-- The owner begins to read. -/
  | read
  /-- The read under way looks for one more message. -/
  | look

/-- What the read under way makes of what it finds. -/
def look (h : Handle) (p : Progress) : Reader × Option Reply :=
  match h.takeOne with
  | (.message (.record r), h) => (⟨h, some ⟨p.records ++ [r], p.count + 1⟩⟩, none)
  | (.message (.error e), h) => (⟨h, none⟩, some ⟨p.records, .error (.native e)⟩)
  | (.empty, h) => (⟨h, none⟩, some ⟨p.records, .ok p.count⟩)
  | (.disconnected, h) =>
    (⟨h, none⟩, some ⟨p.records, if 0 < p.count then .ok p.count else .error .disconnected⟩)

/-- An act, and the reply if a read ends with it. -/
def act (r : Reader) (a : Act) : Reader × Option Reply :=
  match a, r.progress with
  | .send m, _ => ({ r with handle := r.handle.send m }, none)
  | .sever, _ => ({ r with handle := r.handle.disconnect }, none)
  | .read, none => ({ r with progress := some ⟨[], 0⟩ }, none)
  | .look, some p => look r.handle p
  | .read, some _ | .look, none => (r, none)

def next (r : Reader) (a : Act) : Reader := (r.act a).1

def run (r : Reader) (acts : List Act) : Reader := acts.foldl next r

/-- What the read under way has handed over. -/
def held (r : Reader) : List Record := r.progress.elim [] Progress.records

/-- The replies of the reads that ended, in order. -/
def replies (r : Reader) (acts : List Act) : List Reply :=
  noted next (fun r a => (r.act a).2.toList) r acts

/-- The message that an act sends. -/
def sentBy (r : Reader) : Act → List Message
  | .send m => if r.handle.connected then [m] else []
  | .sever | .read | .look => []

def sent (r : Reader) (acts : List Act) : List Message := noted next sentBy r acts

/-- What a look can do. -/
inductive Looked (h : Handle) (p : Progress) : Reader → Option Reply → Prop where
  | took {record : Record} {rest : List Message} (first : h.pending = .record record :: rest) :
    Looked h p ⟨{ h with pending := rest }, some ⟨p.records ++ [record], p.count + 1⟩⟩ none
  | native {e : Error} {rest : List Message} (first : h.pending = .error e :: rest) :
    Looked h p ⟨{ h with pending := rest }, none⟩ (some ⟨p.records, .error (.native e)⟩)
  | ended (nothing : h.pending = []) (more : h.connected = true ∨ 0 < p.count) :
    Looked h p ⟨h, none⟩ (some ⟨p.records, .ok p.count⟩)
  | lost (nothing : h.pending = []) (gone : h.connected = false) (unread : p.count = 0) :
    Looked h p ⟨h, none⟩ (some ⟨p.records, .error .disconnected⟩)

theorem look_looked (h : Handle) (p : Progress) : Looked h p (look h p).1 (look h p).2 := by
  unfold look Handle.takeOne
  cases pending : h.pending with
  | cons m rest =>
    cases m with
    | record record => exact .took pending
    | error e => exact .native pending
  | nil =>
    cases connected : h.connected with
    | true => exact .ended pending (.inl connected)
    | false =>
      by_cases some : 0 < p.count
      · simp only [Bool.false_eq_true, if_false, if_pos some]
        exact .ended pending (.inr some)
      · simp only [Bool.false_eq_true, if_false, if_neg some]
        exact .lost pending connected (Nat.eq_zero_of_not_pos some)

/-! ## Nothing is lost -/

variable {r : Reader} {sent : List Message} {replies : List Reply}

/-- What was sent was given out, or is held by the read under way, or is pending. -/
structure Delivered (r : Reader) (sent : List Message) (replies : List Reply) : Prop where
  messages : sent = replies.flatMap Reply.messages ++ r.held.map .record ++ r.handle.pending
  counted : ∀ p, r.progress = some p → p.count = p.records.length
  answered : ∀ reply ∈ replies, ∀ n, reply.result = .ok n → n = reply.records.length

theorem delivered_start (h : Handle) : (start h).Delivered h.pending [] :=
  ⟨rfl, by simp [start], by simp⟩

theorem Delivered.still (h : r.Delivered sent replies) : r.Delivered (sent ++ []) (replies ++ []) := by
  rw [List.append_nil, List.append_nil]
  exact h

theorem Delivered.send (h : r.Delivered sent replies) (m : Message) :
    Delivered { r with handle := r.handle.send m } (sent ++ r.sentBy (.send m)) (replies ++ []) := by
  rw [List.append_nil]
  unfold sentBy Handle.send
  split
  · refine ⟨?_, h.counted, h.answered⟩
    rw [h.messages, List.append_assoc]
    rfl
  · rw [List.append_nil]
    exact h

theorem Delivered.reply (h : r.Delivered sent replies) {p : Progress} (under : r.progress = some p)
    {reply : Reply} {left : List Message} (records : reply.records = p.records)
    (counted : ∀ n, reply.result = .ok n → n = p.count)
    (took : reply.messages ++ left = p.records.map .record ++ r.handle.pending) :
    Delivered ⟨{ r.handle with pending := left }, none⟩ sent (replies ++ [reply]) := by
  refine ⟨?_, by simp, ?_⟩
  · rw [h.messages, List.flatMap_append, List.flatMap_singleton, List.append_assoc, held, under,
      Option.elim, ← took]
    simp [held]
  · intro other there n ok
    rcases List.mem_append.mp there with old | new
    · exact h.answered other old n ok
    · obtain rfl := List.mem_singleton.mp new
      rw [counted n ok, records]
      exact h.counted p under

theorem Delivered.looked (h : r.Delivered sent replies) {p : Progress} (under : r.progress = some p)
    {s : Reader} {reply : Option Reply} (looked : Looked r.handle p s reply) :
    s.Delivered sent (replies ++ reply.toList) := by
  cases looked with
  | took first =>
    refine ⟨?_, ?_, by simpa using h.answered⟩
    · simp [h.messages, held, under, first]
    · rintro _ ⟨⟩
      simp [h.counted p under]
  | native first =>
    refine h.reply under rfl (by simp) ?_
    simp [Reply.messages, first]
  | ended => exact h.reply under rfl (by simp [eq_comm]) rfl
  | lost => exact h.reply under rfl (by simp) rfl

theorem Delivered.next (h : r.Delivered sent replies) (a : Act) :
    (r.next a).Delivered (sent ++ r.sentBy a) (replies ++ (r.act a).2.toList) := by
  unfold Reader.next
  cases a with
  | send m => exact h.send m
  | sever => exact Delivered.still ⟨h.messages, h.counted, h.answered⟩
  | read =>
    cases progress : r.progress with
    | some p =>
      simp only [act, progress]
      exact h.still
    | none =>
      simp only [act, progress]
      refine Delivered.still ⟨?_, by simp, h.answered⟩
      simp [h.messages, held, progress]
  | look =>
    cases progress : r.progress with
    | none =>
      simp only [act, progress]
      exact h.still
    | some p =>
      simp only [act, progress, sentBy, List.append_nil]
      exact h.looked progress (look_looked r.handle p)

theorem Delivered.run (h : r.Delivered sent replies) (acts : List Act) :
    (r.run acts).Delivered (sent ++ r.sent acts) (replies ++ r.replies acts) := by
  induction acts generalizing r sent replies with
  | nil => exact h.still
  | cons a rest ih =>
    unfold Reader.sent Reader.replies noted
    rw [← List.append_assoc, ← List.append_assoc]
    exact ih (h.next a)

/-! ## A lost connection -/

/-- The sending side is gone, and all that it sent was given out. -/
structure Lost (r : Reader) : Prop where
  pending : r.handle.pending = []
  connected : r.handle.connected = false
  unread : ∀ p, r.progress = some p → p = ⟨[], 0⟩

/-- The reply to every read from then on. -/
def lostReply : Reply := ⟨[], .error .disconnected⟩

theorem Lost.sentBy (h : r.Lost) (a : Act) : r.sentBy a = [] := by
  cases a with
  | send m => simp [Reader.sentBy, h.connected]
  | sever | read | look => rfl

theorem Lost.act (h : r.Lost) (a : Act) :
    (r.next a).Lost ∧ ∀ reply, (r.act a).2 = some reply → reply = lostReply := by
  unfold Reader.next
  cases a with
  | send m =>
    have same : r.handle.send m = r.handle := by simp [Handle.send, h.connected]
    simp only [Reader.act, same]
    exact ⟨h, by simp⟩
  | sever => exact ⟨⟨h.pending, rfl, h.unread⟩, by simp [Reader.act]⟩
  | read =>
    cases progress : r.progress with
    | some p =>
      simp only [Reader.act, progress]
      exact ⟨h, by simp⟩
    | none =>
      simp only [Reader.act, progress]
      exact ⟨⟨h.pending, h.connected, by simp [eq_comm]⟩, by simp⟩
  | look =>
    cases progress : r.progress with
    | none =>
      simp only [Reader.act, progress]
      exact ⟨h, by simp⟩
    | some p =>
      obtain rfl := h.unread p progress
      have found : look r.handle ⟨[], 0⟩ = (⟨r.handle, none⟩, some lostReply) := by
        simp [look, Handle.takeOne, h.pending, h.connected, lostReply]
      simp only [Reader.act, progress, found]
      exact ⟨⟨h.pending, h.connected, by simp⟩, by simp [eq_comm]⟩

theorem Lost.run (h : r.Lost) (acts : List Act) :
    r.sent acts = [] ∧ ∀ reply ∈ r.replies acts, reply = lostReply := by
  induction acts generalizing r with
  | nil => exact ⟨rfl, by simp [replies, noted]⟩
  | cons a rest ih =>
    obtain ⟨next, told⟩ := h.act a
    obtain ⟨nothing, later⟩ := ih next
    unfold sent replies noted
    rw [h.sentBy a]
    refine ⟨nothing, ?_⟩
    intro reply there
    rcases List.mem_append.mp there with now | after
    · exact told reply (Option.mem_toList.mp now)
    · exact later reply after

theorem looked_of_reply {a : Act} {reply : Reply} (told : (r.act a).2 = some reply) :
    ∃ p, r.progress = some p ∧ Looked r.handle p (r.next a) (some reply) := by
  unfold Reader.next
  cases a with
  | send | sever => simp [act] at told
  | read => cases progress : r.progress <;> simp [act, progress] at told
  | look =>
    cases progress : r.progress with
    | none => simp [act, progress] at told
    | some p =>
      simp only [act, progress] at told ⊢
      refine ⟨p, rfl, ?_⟩
      rw [← told]
      exact look_looked r.handle p

/-! ## A read left alone -/

theorem run_cons (r : Reader) (a : Act) (acts : List Act) : r.run (a :: acts) = (r.next a).run acts := rfl

theorem replies_cons (r : Reader) (a : Act) (acts : List Act) :
    r.replies (a :: acts) = (r.act a).2.toList ++ (r.next a).replies acts := rfl

/-- How a read ends that found so many records, and then an error or no more. -/
def ending (connected : Bool) (count : Nat) : Option Error → Except ReadFault Nat
  | some e => .error (.native e)
  | none => if connected = true ∨ 0 < count then .ok count else .error .disconnected

theorem look_alone {h : Handle} {pending : List Message} (begins : h.pending = pending) (p : Progress) :
    let looks := List.replicate ((Handle.split pending).1.length + 1) Act.look
    (Reader.mk h (some p)).run looks = ⟨{ h with pending := (Handle.split pending).2.2 }, none⟩ ∧
    (Reader.mk h (some p)).replies looks =
      [⟨p.records ++ (Handle.split pending).1,
        ending h.connected (p.count + (Handle.split pending).1.length) (Handle.split pending).2.1⟩] := by
  induction pending generalizing h p with
  | nil =>
    have found : look h p = (⟨h, none⟩, some ⟨p.records, ending h.connected p.count none⟩) := by
      unfold look Handle.takeOne ending
      cases h.connected <;> simp [begins]
    have same : { h with pending := [] } = h := by rw [← begins]
    simp [run, replies, noted, next, act, found, Handle.split, same]
  | cons m rest ih =>
    cases m with
    | error e =>
      have found :
          look h p = (⟨{ h with pending := rest }, none⟩, some ⟨p.records, .error (.native e)⟩) := by
        simp [look, Handle.takeOne, begins]
      simp [run, replies, noted, next, act, found, Handle.split, ending]
    | record record =>
      have found : (Reader.mk h (some p)).act .look =
          (⟨{ h with pending := rest }, some ⟨p.records ++ [record], p.count + 1⟩⟩, none) := by
        simp [act, look, Handle.takeOne, begins]
      obtain ⟨left, told⟩ := ih (h := { h with pending := rest }) rfl ⟨p.records ++ [record], p.count + 1⟩
      simp only [Handle.split, List.length_cons]
      rw [List.replicate_succ, run_cons, replies_cons, next, found]
      refine ⟨left, ?_⟩
      simp only [Option.toList_none, List.nil_append, told]
      rw [List.append_assoc, List.singleton_append, Nat.add_assoc, Nat.add_comm 1]

theorem read_alone (h : Handle) :
    let acts := .read :: List.replicate (h.readPending.1.length + 1) .look
    (start h).run acts = ⟨h.readPending.2.2, none⟩ ∧
      (start h).replies acts = [⟨h.readPending.1, h.readPending.2.1⟩] := by
  obtain ⟨left, told⟩ := look_alone (h := h) rfl ⟨[], 0⟩
  have result : h.readPending.2.1 =
      ending h.connected (0 + (Handle.split h.pending).1.length) (Handle.split h.pending).2.1 := by
    simp only [Handle.readPending, Nat.zero_add]
    cases (Handle.split h.pending).2.1 with
    | some e => rfl
    | none => cases h.connected <;> cases (Handle.split h.pending).1 <;> simp [ending]
  rw [result]
  exact ⟨left, told⟩

/-! ## All reads of a handle -/

/-- **Nothing is lost.** However others send and go away between the looks of the reads, what the reads
replied with, what the read under way holds and what is pending are what was sent, in order and once
each; a read that ends well counts the records it hands over. A read ends without an error only
when nothing is pending, and tells of a lost connection only when the sending side is gone and all
that was sent was given out; then every later read tells of it. A read left alone is `readPending`. -/
theorem nothing_lost (h : Handle) (acts : List Act) :
    let r := (start h).run acts
    let replies := (start h).replies acts
    h.pending ++ (start h).sent acts =
      replies.flatMap Reply.messages ++ r.held.map .record ++ r.handle.pending ∧
    (∀ reply ∈ replies, ∀ n, reply.result = .ok n → n = reply.records.length) ∧
    (∀ a reply, (r.act a).2 = some reply →
      ((∀ e, reply.result ≠ .error (.native e)) → r.handle.pending = []) ∧
      (reply.result = .error .disconnected →
        reply = lostReply ∧ r.handle.connected = false ∧
        h.pending ++ (start h).sent acts = replies.flatMap Reply.messages ∧
        ∀ later, ∀ other ∈ (r.next a).replies later, other = lostReply)) ∧
    (r.progress = none →
      let alone := .read :: List.replicate (r.handle.readPending.1.length + 1) .look
      r.run alone = ⟨r.handle.readPending.2.2, none⟩ ∧
        r.replies alone = [⟨r.handle.readPending.1, r.handle.readPending.2.1⟩]) := by
  intro r replies
  have delivered : r.Delivered (h.pending ++ (start h).sent acts) replies := (delivered_start h).run acts
  refine ⟨delivered.messages, delivered.answered, ?_, ?_⟩
  · intro a reply told
    obtain ⟨p, progress, looked⟩ := looked_of_reply told
    generalize after : r.next a = s at looked ⊢
    cases looked with
    | native => exact ⟨fun calm => absurd rfl (calm _), by simp⟩
    | ended nothing => exact ⟨fun _ => nothing, by simp⟩
    | lost nothing gone unread =>
      refine ⟨fun _ => nothing, fun _ => ?_⟩
      have bare : p.records = [] := List.eq_nil_of_length_eq_zero (delivered.counted p progress ▸ unread)
      have held : r.held = [] := by rw [Reader.held, progress, Option.elim, bare]
      have lost : Lost ⟨r.handle, none⟩ := ⟨nothing, gone, by simp⟩
      refine ⟨by rw [bare]; rfl, gone, ?_, fun later => (lost.run later).2⟩
      rw [delivered.messages, held, nothing, List.map_nil, List.append_nil, List.append_nil]
  · intro idle
    have begins : r = start r.handle := by rw [start, ← idle]
    intro alone
    rw [begins]
    exact read_alone r.handle

/-- Two records and an error come in while a handle is read, then one more record and the end. -/
theorem nothing_lost_raced :
    let record (byte : UInt8) : Record := ⟨.create, [⟨[0x2F, byte]⟩], false⟩
    let failed : Error := ⟨.tooManyWatches, []⟩
    let h : Handle := .make ⟨[0x2F]⟩ 0 false
    let acts : List Act :=
      [.read, .send (.record (record 1)), .look, .send (.record (record 2)), .look,
        .send (.error failed), .send (.record (record 3)), .look, .sever, .read, .look, .look, .read]
    let r := (start h).run acts
    (start h).replies acts =
      [⟨[record 1, record 2], .error (.native failed)⟩, ⟨[record 3], .ok 1⟩] ∧
    (start h).sent acts =
      [.record (record 1), .record (record 2), .error failed, .record (record 3)] ∧
    (r.act .look).2 = some lostReply ∧
    ∀ later, ∀ other ∈ (r.next .look).replies later, other = lostReply := by
  intro record failed h acts r
  have told : (r.act .look).2 = some lostReply := by decide
  obtain ⟨sent, _, ends, _⟩ := nothing_lost h acts
  have replies : (start h).replies acts =
      [⟨[record 1, record 2], .error (.native failed)⟩, ⟨[record 3], .ok 1⟩] := by decide
  refine ⟨replies, ?_, told, ((ends .look lostReply told).2 rfl).2.2.2⟩
  rw [replies] at sent
  exact sent

end Reader

end DirectoryWatch.Native
