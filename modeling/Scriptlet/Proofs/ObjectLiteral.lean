import Scriptlet.Proofs.Evaluation.Kept
import Scriptlet.Proofs.Record

/-!
# Objects are ordered maps

**Theorem (`Eval.literals_collect`).** Evaluating an object literal evaluates its properties in turn: each
of them once, from left to right, on the machine that the one before it left (`Eval.InTurn`). If every one
comes to a value, so does the literal, and its value is a new object that is an ordered map of what was
computed (`Value.OrderedMap`). If one of them ends otherwise, the literal ends in just that way, and those
behind it are not evaluated.

**Repeated keys.** A key can stand at several places of a literal. All of them are evaluated; the key has
the place of the first and the value of the last. So neither the keys nor the values of the object come in
the order of evaluation, and a value that was written over can still have had effects.

**One after the other.** A row of properties either was evaluated in turn or stops behind a shorter row
that was (`Eval.inTurn_or_stops`); the induction adds one property at the end. What has been computed by
then says which object is held on to while the next property is evaluated.
-/

namespace Scriptlet

open List (Forall₂)
open Record (names WritesLast)

/-! ## What an object tells -/

namespace Value

variable {id : Nat} {fields written : Record Value}

/-- An object that is an ordered map of a row of written properties: it has their keys in the order of first
writing, each with the value written last, and its members, their number and its text are those. -/
structure OrderedMap (id : Nat) (fields written : Record Value) : Prop where
  distinct : (names fields).Nodup
  keys : names fields = (names written).eraseDups
  values : Forall₂ (WritesLast written) (names fields) (fields.map Prod.snd)
  length : fields.length = (names written).toFinset.card
  member : ∀ key value, (object id fields).member key = .ok value ↔ WritesLast written key value
  missing : ∀ key fault, (object id fields).member key = .error fault ↔
    key ∉ names written ∧ fault = .memberNotFound key .object
  display : (object id fields).display =
    if fields = [] then "\x7b\x7d"
    else "\x7b " ++ ", ".intercalate (fields.map fun (key, value) => key ++ ": " ++ value.displayInside) ++
      " \x7d"

theorem displayFields_eq_map (fields : List (String × Value)) :
    displayFields fields = fields.map fun (key, value) => key ++ ": " ++ value.displayInside := by
  induction fields with
  | nil => rw [displayFields, List.map_nil]
  | cons field rest ih => rw [displayFields, List.map_cons, ih]

theorem display_object :
    (object id fields).display =
      if fields = [] then "\x7b\x7d"
      else "\x7b " ++
        ", ".intercalate (fields.map fun (key, value) => key ++ ": " ++ value.displayInside) ++ " \x7d" := by
  cases fields with
  | nil => rw [display, if_pos rfl]
  | cons field rest =>
    rw [display, displayFields_eq_map, if_neg (List.cons_ne_nil _ _)]
    exact List.cons_ne_nil _ _

theorem member_eq_ok_iff {key : String} {value : Value} :
    (object id fields).member key = .ok value ↔ fields.get? key = some value := by
  rw [member]
  cases fields.get? key <;> simp

theorem member_eq_error_iff {key : String} {fault : Fault} :
    (object id fields).member key = .error fault ↔
      key ∉ names fields ∧ fault = .memberNotFound key .object := by
  rw [member, ← Record.get?_eq_none_iff]
  cases fields.get? key <;> simp [eq_comm]

/-- **What a row of writings comes to is an ordered map of them.** -/
theorem orderedMap_putAll (id : Nat) (written : Record Value) :
    OrderedMap id (Record.putAll [] written) written where
  distinct := Record.nodup_names_putAll written List.nodup_nil
  keys := Record.names_putAll written
  values := Record.values_putAll written
  length := Record.length_putAll written
  member key value := member_eq_ok_iff.trans Record.get?_putAll_eq_some_iff
  missing key fault := by rw [member_eq_error_iff, Record.names_putAll, List.mem_eraseDups]
  display := display_object

theorem OrderedMap.eq_putAll (h : OrderedMap id fields written) : fields = Record.putAll [] written :=
  Record.eq_putAll h.keys h.values

end Value

namespace Eval

variable {evaluate : Expr → Eval Value} {scope : ScopeId} {span : Span} {m last after : Machine}
  {row : List (String × Option Expr)} {written fields : Record Value} {halt : Halt}

/-! ## Properties in turn -/

/-- The evaluation of one property, behind others whose values have been written: an expression is
evaluated while the object so far is held on to, and a key without one reads the variable of its name. -/
def property (evaluate : Expr → Eval Value) (scope : ScopeId) (span : Span) (written : Record Value) :
    String × Option Expr → Eval Value
  | (_, some expr) => holding ((Record.putAll [] written).map (.value ·.2)) (evaluate expr)
  | (key, none) => located span (lookup scope key)

/-- A row of properties that was evaluated from some machine on, each property once and on the machine that
the one before left: with the values that were written under their keys, and the machine at the end. -/
inductive InTurn (evaluate : Expr → Eval Value) (scope : ScopeId) (span : Span) (m : Machine) :
    List (String × Option Expr) → Record Value → Machine → Prop where
  | nothing : InTurn evaluate scope span m [] [] m
  | next {row : List (String × Option Expr)} {written : Record Value} {last after : Machine} {key : String}
    {init : Option Expr} {value : Value} (h : InTurn evaluate scope span m row written last)
    (hvalue : property evaluate scope span written (key, init) last = .ok value after) :
    InTurn evaluate scope span m (row ++ [(key, init)]) (written ++ [(key, value)]) after

theorem InTurn.names_eq (h : InTurn evaluate scope span m row written last) :
    names written = row.map Prod.fst := by
  induction h with
  | nothing => rfl
  | next _ _ ih => simp [ih]

theorem properties_putAll_cons (written : Record Value) (p : String × Option Expr)
    (rest : List (String × Option Expr)) :
    properties evaluate scope span (Record.putAll [] written) (p :: rest) =
      property evaluate scope span written p >>= fun value =>
        properties evaluate scope span (Record.putAll [] (written ++ [(p.1, value)])) rest := by
  obtain ⟨key, _ | expr⟩ := p <;> simp only [properties, property, Record.putAll_concat]

/-- Behind properties that were evaluated in turn, the evaluation goes on with the rest. -/
theorem InTurn.properties_append (h : InTurn evaluate scope span m row written last)
    (rest : List (String × Option Expr)) :
    properties evaluate scope span [] (row ++ rest) m =
      properties evaluate scope span (Record.putAll [] written) rest last := by
  induction h generalizing rest with
  | nothing => rfl
  | next h hvalue ih =>
    rw [List.append_assoc, List.singleton_append, ih, properties_putAll_cons]
    exact bind_of_ok hvalue

/-- A row of properties that ends before it is through: one of them does, behind others that were evaluated
in turn. -/
def Stops (evaluate : Expr → Eval Value) (scope : ScopeId) (span : Span) (m : Machine)
    (row : List (String × Option Expr)) (halt : Halt) (after : Machine) : Prop :=
  ∃ before p rest written last, row = before ++ p :: rest ∧
    InTurn evaluate scope span m before written last ∧
    property evaluate scope span written p last = .error halt after

theorem Stops.properties_eq (h : Stops evaluate scope span m row halt after) :
    properties evaluate scope span [] row m = .error halt after := by
  obtain ⟨before, p, rest, written, last, rfl, hbefore, hp⟩ := h
  rw [hbefore.properties_append, properties_putAll_cons]
  exact bind_of_error hp

theorem InTurn.properties_eq (h : InTurn evaluate scope span m row written last) :
    properties evaluate scope span [] row m = .ok (Record.putAll [] written) last := by
  have hrow := h.properties_append []
  rwa [List.append_nil] at hrow

/-- **Every row of properties is evaluated in turn or stops.** -/
theorem inTurn_or_stops (evaluate : Expr → Eval Value) (scope : ScopeId) (span : Span) (m : Machine)
    (row : List (String × Option Expr)) :
    (∃ written last, InTurn evaluate scope span m row written last) ∨
      ∃ halt after, Stops evaluate scope span m row halt after := by
  induction row using List.reverseRecOn with
  | nil => exact .inl ⟨[], m, .nothing⟩
  | append_singleton row p ih =>
    rcases ih with ⟨written, last, hrow⟩ |
      ⟨halt, after, before, first, rest, written, last, rfl, hstops⟩
    · -- Only here is the last property begun; a row that stopped before stops there still.
      cases hp : property evaluate scope span written p last with
      | ok value after => exact .inl ⟨_, after, hrow.next hp⟩
      | error halt after => exact .inr ⟨halt, after, row, p, [], written, last, rfl, hrow, hp⟩
    · exact .inr ⟨halt, after, before, first, rest ++ [p], written, last, by simp, hstops⟩

theorem properties_eq_ok_iff :
    properties evaluate scope span [] row m = .ok fields last ↔
      ∃ written, InTurn evaluate scope span m row written last ∧ fields = Record.putAll [] written := by
  constructor
  · intro h
    rcases inTurn_or_stops evaluate scope span m row with
      ⟨written, final, hrow⟩ | ⟨halt, after, hstops⟩
    · cases h.symm.trans hrow.properties_eq
      exact ⟨written, hrow, rfl⟩
    · cases h.symm.trans hstops.properties_eq
  · rintro ⟨written, hrow, rfl⟩
    exact hrow.properties_eq

theorem properties_eq_error_iff :
    properties evaluate scope span [] row m = .error halt after ↔
      Stops evaluate scope span m row halt after := by
  refine ⟨fun h => ?_, Stops.properties_eq⟩
  rcases inTurn_or_stops evaluate scope span m row with
    ⟨written, final, hrow⟩ | ⟨reason, final, hstops⟩
  · cases h.symm.trans hrow.properties_eq
  · cases h.symm.trans hstops.properties_eq
    exact hstops

/-! ## Literals -/

theorem evaluate_object (steps : Nat) (literal : List (String × Option Expr)) (span : Span)
    (scope : ScopeId) (m : Machine) :
    Eval.evaluate (steps + 1) (.object literal span) scope m =
      match properties (Eval.evaluate steps · scope) scope span [] literal m with
      | .ok fields last =>
        .ok (.object last.heap.store.fresh fields) (last.withStore last.heap.store.newId.2)
      | .error halt after => .error halt after := by
  rw [Eval.evaluate]
  cases h : properties (Eval.evaluate steps · scope) scope span [] literal m with
  | ok fields last => exact bind_of_ok h
  | error halt after => exact bind_of_error h

/-- **An object literal evaluates its properties in turn, and its value is an ordered map of what they came
to.** It ends with a value exactly if all of them do, and otherwise just as the first one that does not. -/
theorem literals_collect (steps : Nat) (literal : List (String × Option Expr)) (span : Span)
    (scope : ScopeId) (m : Machine) :
    (∀ value after, Eval.evaluate (steps + 1) (.object literal span) scope m = .ok value after ↔
      ∃ written last fields,
        InTurn (Eval.evaluate steps · scope) scope span m literal written last ∧
        names written = literal.map Prod.fst ∧
        Value.OrderedMap last.heap.store.fresh fields written ∧
        value = .object last.heap.store.fresh fields ∧
        after = last.withStore last.heap.store.newId.2) ∧
    ∀ halt after, Eval.evaluate (steps + 1) (.object literal span) scope m = .error halt after ↔
      Stops (Eval.evaluate steps · scope) scope span m literal halt after := by
  rw [evaluate_object]
  refine ⟨fun value after => ⟨fun h => ?_, ?_⟩, fun halt after => ?_⟩
  · split at h
    · rename_i fields last hfields
      cases h
      obtain ⟨written, hrow, rfl⟩ := properties_eq_ok_iff.mp hfields
      exact ⟨written, last, _, hrow, hrow.names_eq, Value.orderedMap_putAll _ written, rfl, rfl⟩
    · cases h
  · rintro ⟨written, last, fields, hrow, -, hmap, rfl, rfl⟩
    rw [hrow.properties_eq, hmap.eq_putAll]
  · rw [← properties_eq_error_iff]
    split
    · rename_i hfields
      simp [hfields]
    · rename_i hhalt
      simp [hhalt]

/-- A literal whose properties assign a variable and read it, with a key that stands at its beginning and at
its end; and one that stops in the middle, behind one assignment and before another. -/
theorem literals_collect_assignments :
    let place : Span := default
    let assigned (text : String) : Option Expr :=
      some (.assignment (.identifier "x" place) (.text text place) place)
    let m := (Machine.start (Console.ofLines []) defaultDepthLimit).withStore
      ((Store.empty.newScope none).2.bind 0 "x" ⟨.null, false⟩)
    let whole := [("b", assigned "one"), ("a", some (.identifier "x" place)), ("x", none),
      ("b", assigned "two")]
    let written : Record Value :=
      [("b", .text "one"), ("a", .text "one"), ("x", .text "one"), ("b", .text "two")]
    let fields : Record Value := [("b", .text "two"), ("a", .text "one"), ("x", .text "one")]
    let broken := [("b", assigned "one"), ("missing", none), ("b", assigned "two")]
    (∃ last, InTurn (Eval.evaluate 2 · 0) 0 place m whole written last ∧ last.heap.store.fresh = 1 ∧
      Eval.evaluate 3 (.object whole place) 0 m =
        .ok (.object 1 fields) (last.withStore last.heap.store.newId.2)) ∧
    ∃ last, last.heap.store.lookup 0 "x" = .ok (.text "one") ∧
      Eval.evaluate 3 (.object broken place) 0 m =
        .error (.failure ⟨.undeclaredVariable "missing", some place⟩) last := by
  intro place assigned m whole written fields broken
  -- The rows are given as they come about, by additions at the end.
  constructor
  · obtain ⟨last, hwhole, hfresh⟩ : ∃ last,
        InTurn (Eval.evaluate 2 · 0) 0 place m
          ([] ++ [("b", assigned "one")] ++ [("a", some (.identifier "x" place))] ++ [("x", none)] ++
            [("b", assigned "two")])
          ([] ++ [("b", .text "one")] ++ [("a", .text "one")] ++ [("x", .text "one")] ++
            [("b", .text "two")]) last ∧
        last.heap.store.fresh = 1 :=
      ⟨_, .next (.next (.next (.next .nothing rfl) rfl) rfl) rfl, rfl⟩
    have hmap : Value.OrderedMap last.heap.store.fresh fields written := Value.orderedMap_putAll _ written
    refine ⟨last, hwhole, hfresh, ?_⟩
    refine ((literals_collect 2 whole place 0 m).1 _ _).mpr
      ⟨written, last, fields, hwhole, rfl, hmap, ?_, rfl⟩
    rw [hfresh]
  · obtain ⟨last, hfirst, hx, hmissing⟩ : ∃ last,
        InTurn (Eval.evaluate 2 · 0) 0 place m ([] ++ [("b", assigned "one")])
          ([] ++ [("b", .text "one")]) last ∧
        last.heap.store.lookup 0 "x" = .ok (.text "one") ∧
        property (Eval.evaluate 2 · 0) 0 place [("b", .text "one")] ("missing", none) last =
          .error (.failure ⟨.undeclaredVariable "missing", some place⟩) last :=
      ⟨_, .next .nothing rfl, rfl, rfl⟩
    have hstops : Stops (Eval.evaluate 2 · 0) 0 place m broken
        (.failure ⟨.undeclaredVariable "missing", some place⟩) last :=
      ⟨_, _, [("b", assigned "two")], _, last, rfl, hfirst, hmissing⟩
    exact ⟨last, hx, ((literals_collect 2 broken place 0 m).2 _ _).mpr hstops⟩

end Eval

end Scriptlet
