import Mathlib.Data.List.Basic
import Scriptlet.Console
import Scriptlet.Fault

/-!
# Consoles that refuse a call

A console that is told to refuse one of its calls does the same as one that refuses nothing, until
that call is made (`Console.Untouched`). Then it has failed, and what had happened there is what had
happened at the other console before the call, which now goes on (`Console.CutFrom`).
-/

namespace Scriptlet

/-! ## Events -/

namespace ConsoleEvent

/-- Whether an event is a write. -/
def isWrite : ConsoleEvent → Bool
  | wrote _ => true
  | read _ => false

/-- Whether an event is a read. -/
def isRead : ConsoleEvent → Bool
  | wrote _ => false
  | read _ => true

/-- The text that an event writes. -/
def written? : ConsoleEvent → Option String
  | wrote text => some text
  | read _ => none

/-- The line that an event takes from the input. -/
def taken? : ConsoleEvent → Option String
  | wrote _ => none
  | read line => line

variable (log : List ConsoleEvent) (text : String) (line : Option String)

@[simp] theorem writes_wrote : (wrote text :: log).countP isWrite = log.countP isWrite + 1 :=
  List.countP_cons_of_pos rfl

@[simp] theorem reads_wrote : (wrote text :: log).countP isRead = log.countP isRead :=
  List.countP_cons_of_neg Bool.false_ne_true

@[simp] theorem writes_read : (read line :: log).countP isWrite = log.countP isWrite :=
  List.countP_cons_of_neg Bool.false_ne_true

@[simp] theorem reads_read : (read line :: log).countP isRead = log.countP isRead + 1 :=
  List.countP_cons_of_pos rfl

/-- Lines that are read write nothing. -/
theorem join_text (events : List ConsoleEvent) :
    String.join (events.map ConsoleEvent.text) = String.join (events.filterMap written?) := by
  induction events with
  | nil => rfl
  | cons event events ih =>
    cases event with
    | wrote text =>
      have hkept : (wrote text :: events).filterMap written? = text :: events.filterMap written? := rfl
      rw [hkept, List.map_cons, String.join_cons, String.join_cons, ih]
      rfl
    | read line =>
      have hdropped : (read line :: events).filterMap written? = events.filterMap written? := rfl
      rw [hdropped, List.map_cons, String.join_cons, ih]
      exact String.empty_append

end ConsoleEvent

open ConsoleEvent (isWrite isRead taken?)

/-! ## Refused calls -/

/-- Which calls are refused, and the input at the beginning. -/
structure RefusedCalls where
  write : Option Nat
  read : Option Nat
  input : List String

/-- The events of a log, newest first, behind which a call is refused for a reason. -/
inductive RefusedCalls.Refuses (r : RefusedCalls) (log : List ConsoleEvent) :
    ConsoleEvent → String → Prop where
  | write (text : String) (h : r.write = some (log.countP isWrite + 1)) :
    Refuses r log (.wrote text) "write refused"
  | read (line : Option String) (h : r.read = some (log.countP isRead + 1)) :
    Refuses r log (.read line) "read refused"

namespace Console

variable {r : RefusedCalls} {c stopped : Console} {fault : Fault}

/-- The console with calls to refuse. -/
def refusing (c : Console) (r : RefusedCalls) : Console :=
  { c with refusedWrite := r.write, refusedRead := r.read }

/-- A console that refuses nothing and keeps account of its calls and of the input, at which no call
was made yet that is to be refused. -/
structure Untouched (r : RefusedCalls) (c : Console) : Prop where
  refusedWrite : c.refusedWrite = none
  refusedRead : c.refusedRead = none
  writes : c.writes = c.log.countP isWrite
  reads : c.reads = c.log.countP isRead
  writes_lt : ∀ n, r.write = some n → c.log.countP isWrite < n
  reads_lt : ∀ n, r.read = some n → c.log.countP isRead < n
  input : r.input = c.log.reverse.filterMap taken? ++ c.input

/-- A console at which a call was refused that was made at another one. -/
structure CutFrom (r : RefusedCalls) (c : Console) (fault : Fault) (stopped : Console) : Prop where
  event : ∃ after event reason, c.log = after ++ event :: stopped.log ∧
    r.Refuses stopped.log event reason ∧ fault = .consoleFailure reason
  input : r.input = stopped.log.reverse.filterMap taken? ++ stopped.input

theorem CutFrom.grow {later : Console} (h : CutFrom r c fault stopped)
    (hgrows : ∃ more, later.log = more ++ c.log) : CutFrom r later fault stopped := by
  obtain ⟨⟨after, event, reason, hlog, hrefuses, hfault⟩, hinput⟩ := h
  obtain ⟨more, hmore⟩ := hgrows
  refine ⟨⟨more ++ after, event, reason, ?_, hrefuses, hfault⟩, hinput⟩
  rw [hmore, hlog, List.append_assoc]

/-- A console at which no refused call was made is what it would be without the refusal. -/
theorem Untouched.unrefused (h : c.Untouched r) :
    { c.refusing r with refusedWrite := none, refusedRead := none } = c := by
  cases c
  cases h.refusedWrite
  cases h.refusedRead
  rfl

theorem write_eq (text : String) (h : c.refusedWrite ≠ some (c.writes + 1)) :
    c.write text = (.ok (), { c with writes := c.writes + 1 }.record (.wrote text)) :=
  if_neg h

theorem write_refused (text : String) (h : c.refusedWrite = some (c.writes + 1)) :
    c.write text = (.error "write refused", { c with writes := c.writes + 1 }) :=
  if_pos h

theorem read_eq (h : c.refusedRead ≠ some (c.reads + 1)) :
    c.read = (.ok c.input.head?, { c with reads := c.reads + 1, input := c.input.tail }.record
      (.read c.input.head?)) := by
  refine (if_neg h).trans ?_
  dsimp only
  cases c.input with
  | nil => simp [record]
  | cons line rest => rfl

theorem read_refused (h : c.refusedRead = some (c.reads + 1)) :
    c.read = (.error "read refused", { c with reads := c.reads + 1 }) :=
  if_pos h

theorem write_grows (c : Console) (text : String) :
    ∃ more, (c.write text).2.log = more ++ c.log := by
  by_cases h : c.refusedWrite = some (c.writes + 1)
  · exact ⟨[], by rw [write_refused text h]; rfl⟩
  · exact ⟨[.wrote text], by rw [write_eq text h]; rfl⟩

theorem read_grows (c : Console) : ∃ more, c.read.2.log = more ++ c.log := by
  by_cases h : c.refusedRead = some (c.reads + 1)
  · exact ⟨[], by rw [read_refused h]; rfl⟩
  · exact ⟨[.read c.input.head?], by rw [read_eq h]; rfl⟩

/-- A write goes through at both consoles, or it is the one to be refused. -/
theorem Untouched.write (h : c.Untouched r) (text : String) :
    (c.write text).1 = .ok () ∧
      ((c.refusing r).write text = (.ok (), (c.write text).2.refusing r) ∧
          (c.write text).2.Untouched r ∨
        ∃ stopped, (c.refusing r).write text = (.error "write refused", stopped) ∧
          (c.write text).2.CutFrom r (.consoleFailure "write refused") stopped) := by
  rw [write_eq text (by simp [h.refusedWrite])]
  refine ⟨rfl, ?_⟩
  by_cases hrefused : r.write = some (c.writes + 1)
  · refine .inr ⟨_, write_refused text hrefused, ⟨[], .wrote text, _, rfl, ?_, rfl⟩, h.input⟩
    exact .write text (h.writes ▸ hrefused)
  · refine .inl ⟨write_eq text hrefused, h.refusedWrite, h.refusedRead, ?_, ?_, fun n hn => ?_, ?_, ?_⟩
    · simp [record, h.writes]
    · simp [record, h.reads]
    · have hlt := h.writes_lt n hn
      have hne : n ≠ c.log.countP isWrite + 1 := fun heq => hrefused (h.writes ▸ heq ▸ hn)
      simp only [record, ConsoleEvent.writes_wrote]
      omega
    · simpa [record] using h.reads_lt
    · simpa [record, List.filterMap_cons, taken?] using h.input

/-- A read goes through at both consoles, or it is the one to be refused. -/
theorem Untouched.read (h : c.Untouched r) :
    c.read.1 = .ok c.input.head? ∧
      ((c.refusing r).read = (.ok c.input.head?, c.read.2.refusing r) ∧ c.read.2.Untouched r ∨
        ∃ stopped, (c.refusing r).read = (.error "read refused", stopped) ∧
          c.read.2.CutFrom r (.consoleFailure "read refused") stopped) := by
  rw [read_eq (by simp [h.refusedRead])]
  refine ⟨rfl, ?_⟩
  by_cases hrefused : r.read = some (c.reads + 1)
  · refine .inr ⟨_, read_refused hrefused, ⟨[], .read c.input.head?, _, rfl, ?_, rfl⟩, h.input⟩
    exact .read c.input.head? (h.reads ▸ hrefused)
  · refine .inl ⟨read_eq hrefused, h.refusedWrite, h.refusedRead, ?_, ?_, ?_, fun n hn => ?_, ?_⟩
    · simp [record, h.writes]
    · simp [record, h.reads]
    · simpa [record] using h.writes_lt
    · have hlt := h.reads_lt n hn
      have hne : n ≠ c.log.countP isRead + 1 := fun heq => hrefused (h.reads ▸ heq ▸ hn)
      simp only [record, ConsoleEvent.reads_read]
      omega
    · rw [h.input]
      cases c.input <;> simp [record, List.filterMap_cons, taken?]

end Console

end Scriptlet
