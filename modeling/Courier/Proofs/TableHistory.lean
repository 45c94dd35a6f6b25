import Courier.Proofs.BuiltinVerbs
import Courier.Proofs.Correlation
import Courier.Proofs.KeyedOrder
import Mathlib.Data.List.Induction

/-!
# Tables and the calls that made them

A table is known by the calls that bound its verbs, from the first one on: under a verb stands the
handler that was given last (`get?_registerAll`), and each call finds there what the calls before it
have left (`replaced_bindAll`). All that can be asked of a table follows from these two facts.

Main statement: `tells_bindAll`.
-/

namespace Courier

abbrev Binding := String × Handler

namespace Table

/-! ## What the calls say -/

/-- The handler that the last call with this verb gave. -/
def lastHandler? (verb : String) (calls : List Binding) : Option Handler :=
  (calls.reverse.find? (·.1 == verb)).map (·.2)

theorem isSome_lastHandler?_iff {verb : String} {calls : List Binding} :
    (lastHandler? verb calls).isSome = true ↔ verb ∈ calls.map (·.1) := by
  rw [lastHandler?, Option.isSome_map, List.find?_isSome]
  simp only [List.mem_reverse, beq_iff_eq, List.mem_map]

theorem lastHandler?_append (verb : String) (calls later : List Binding) :
    lastHandler? verb (calls ++ later) =
      (lastHandler? verb later).or (lastHandler? verb calls) := by
  unfold lastHandler?
  rw [List.reverse_append, List.find?_append]
  cases later.reverse.find? (·.1 == verb) <;> rfl

/-- The calls that make a new table: none, or those for the verbs of every server. -/
def setUp (builtins : Bool) : List Binding :=
  if builtins then
    [(Verb.ping, Verb.handlePing), (Verb.execute, Verb.handleExecute), (Verb.poll, Verb.handlePoll)]
  else []

def new (builtins : Bool) : Table := if builtins then builtin else empty

theorem new_eq (builtins : Bool) : new builtins = empty.registerAll (setUp builtins) := by
  cases builtins <;> rfl

/-- The table with several verbs bound, one after another, and for each call the handler that it
replaced. -/
def bindAll (t : Table) : List Binding → List (Option Handler) × Table
  | [] => ([], t)
  | c :: calls =>
      let (replaced, t) := t.bind c.1 c.2
      let (later, t) := t.bindAll calls
      (replaced :: later, t)

/-! ## What a table holds -/

variable {t : Table} {calls : List Binding} {verb : String}

theorem registerAll_append (t : Table) (calls later : List Binding) :
    t.registerAll (calls ++ later) = (t.registerAll calls).registerAll later :=
  List.foldl_append

/-- **Under a verb stands the handler that was given last.** -/
theorem get?_registerAll (t : Table) (calls : List Binding) (verb : String) :
    (t.registerAll calls).get? verb = (lastHandler? verb calls).or (t.get? verb) := by
  induction calls using List.reverseRecOn with
  | nil => rfl
  | append_singleton calls c ih =>
    rw [registerAll_append, lastHandler?_append]
    show ((t.registerAll calls).register c.1 c.2).get? verb = _
    by_cases hverb : c.1 = verb
    · rw [← hverb, get?_register_self]
      simp [lastHandler?]
    · rw [get?_register_of_ne (Ne.symm hverb), ih]
      simp [lastHandler?, hverb]

theorem get?_empty_registerAll (calls : List Binding) (verb : String) :
    (empty.registerAll calls).get? verb = lastHandler? verb calls := by
  rw [get?_registerAll]
  exact Option.or_none

theorem mem_verbs_iff : verb ∈ t.verbs ↔ (t.get? verb).isSome = true :=
  Keyed.isSome_get?_iff.symm

theorem verbs_registerAll (calls : List Binding) :
    (empty.registerAll calls).verbs.Pairwise (· < ·) := by
  have hbindings : Keyed.ofList calls = (empty.registerAll calls).bindings :=
    List.foldl_hom bindings fun _ _ => rfl
  rw [verbs, ← hbindings]
  exact List.pairwise_map.mpr (Keyed.ascending_ofList calls)

theorem table_bindAll (t : Table) (calls : List Binding) :
    (t.bindAll calls).2 = t.registerAll calls := by
  induction calls generalizing t with
  | nil => rfl
  | cons c calls ih => exact ih (t.register c.1 c.2)

/-- **Each call replaces the handler that was given last before it**, if there was one. -/
theorem replaced_bindAll (made calls : List Binding) :
    ((empty.registerAll made).bindAll calls).1 =
      calls.mapIdx fun i c => lastHandler? c.1 (made ++ calls.take i) := by
  induction calls generalizing made with
  | nil => rfl
  | cons c calls ih =>
    have hmade : (empty.registerAll made).register c.1 c.2 = empty.registerAll (made ++ [c]) := by
      rw [registerAll_append]
      rfl
    rw [List.mapIdx_cons, List.take_zero, List.append_nil, ← get?_empty_registerAll]
    show _ :: (((empty.registerAll made).register c.1 c.2).bindAll calls).1 = _
    rw [hmade, ih]
    simp

/-! ## What a table does -/

/-- The answer to a request with what its handler gave. -/
def conclude (r : Request) : Except Failure Response × Queue → Response × Queue
  | (.ok response, q) => (correlate r response, q)
  | (.error f, q) => (.failureFor r f, q)

theorem dispatch_of_get? {r : Request} {handler : Handler} (h : t.get? r.verb = some handler)
    (q : Queue) : t.dispatch r q = conclude r (handler r q) := by
  rcases hrun : handler r q with ⟨f | response, q'⟩
  · simp only [dispatch, resolve, h, hrun, conclude]
  · simp only [dispatch, resolve, h, hrun, conclude]

theorem resolve_eq_ok_iff {handler : Handler} :
    t.resolve verb = .ok handler ↔ t.get? verb = some handler := by
  unfold resolve
  cases t.get? verb <;> simp

/-- The calls tell all that can be asked of the table that they made, and what each of the later
ones replaced. -/
structure Tells (made calls : List Binding) (reported : List (Option Handler)) (t : Table) :
    Prop where
  bound : ∀ r q handler, lastHandler? r.verb (made ++ calls) = some handler →
    t.dispatch r q = conclude r (handler r q)
  /-- A request with any other verb is answered in one way, and the queue stays as it is. -/
  unbound : ∀ r q, r.verb ∉ (made ++ calls).map (·.1) →
    ∃ response : Response, t.dispatch r q = (response, q) ∧ response.Mirrors r ∧
      response.status = .error ∧ response.field? "code" = some (.string "NOT_IMPLEMENTED") ∧
      response = .failureFor r (.unknownVerb r.verb)
  replaced : reported = calls.mapIdx fun i c => lastHandler? c.1 (made ++ calls.take i)
  /-- It replaced something exactly if its verb was bound. -/
  reports : reported.map Option.isSome =
    calls.mapIdx fun i c => decide (c.1 ∈ (made ++ calls.take i).map (·.1))
  contains : ∀ verb, t.contains verb = true ↔ verb ∈ (made ++ calls).map (·.1)
  resolve : ∀ verb, (∃ handler, t.resolve verb = .ok handler) ↔ verb ∈ (made ++ calls).map (·.1)
  verbs : ∀ verb, verb ∈ t.verbs ↔ verb ∈ (made ++ calls).map (·.1)
  ordered : t.verbs.Pairwise (· < ·)

/-- **A table is what the calls made of it.** -/
theorem tells_bindAll (builtins : Bool) (calls : List Binding) :
    Tells (setUp builtins) calls ((new builtins).bindAll calls).1
      ((new builtins).bindAll calls).2 := by
  have htable : ((new builtins).bindAll calls).2 = empty.registerAll (setUp builtins ++ calls) := by
    rw [table_bindAll, new_eq, registerAll_append]
  have hreplaced := replaced_bindAll (setUp builtins) calls
  rw [← new_eq] at hreplaced
  have hget : ∀ verb, ((new builtins).bindAll calls).2.get? verb =
      lastHandler? verb (setUp builtins ++ calls) := by
    intro verb
    rw [htable, get?_empty_registerAll]
  -- from here on it does not matter which calls have made the table
  generalize setUp builtins = made at *
  refine ⟨?_, ?_, hreplaced, ?_, ?_, ?_, ?_, ?_⟩
  · intro r q handler hlast
    exact dispatch_of_get? ((hget r.verb).trans hlast) q
  · intro r q hverb
    have hnone : ((new builtins).bindAll calls).2.get? r.verb = none := by
      rw [hget, ← Option.not_isSome_iff_eq_none, isSome_lastHandler?_iff]
      exact hverb
    exact ⟨_, dispatch_unbound hnone q, Response.mirrors_failureFor r _, rfl,
      Response.code_failureFor r _, rfl⟩
  · symm
    rw [hreplaced, List.mapIdx_eq_iff]
    intro i
    rw [List.getElem?_map, List.getElem?_mapIdx, Option.map_map]
    congr 1
    funext c
    rw [Bool.eq_iff_iff, Function.comp_apply, isSome_lastHandler?_iff, decide_eq_true_iff]
  · intro verb
    rw [contains, hget, isSome_lastHandler?_iff]
  · intro verb
    simp only [resolve_eq_ok_iff, hget, ← isSome_lastHandler?_iff, Option.isSome_iff_exists]
  · intro verb
    rw [mem_verbs_iff, hget, isSome_lastHandler?_iff]
  · rw [htable]
    exact verbs_registerAll _

/-- Verbs that differ in case only are two verbs, and one of every server's may be bound again. -/
example :
    let (reported, t) := (new true).bindAll
      [("ping", Verb.handlePoll), (Verb.ping, Verb.handlePoll), ("ping", Verb.handlePing)]
    reported.map Option.isSome = [false, true, true] ∧
      t.verbs = [Verb.execute, Verb.ping, Verb.poll, "ping"] := by
  decide

end Table

end Courier
