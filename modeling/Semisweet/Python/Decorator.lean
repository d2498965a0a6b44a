import Semisweet.Core.CacheHistory
import Semisweet.Python.CacheQuery

/-!
# The `@cache` decorator

`python/semisweet/decorator.py` memoizes an `async` function. A call turns its arguments
into a lookup — one argument is the query, the arguments named in `keys` are its keys, one
may be its context — and looks it up; on a hit the cached value is returned, and otherwise
the function runs and its result is stored under the same lookup.

The key values of a call are the elements of a *set*: which parameter a value came from is
lost, and the store matches a lookup with every entry that has its keys. The module
documentation calls this "exact-match scoping".

## The model

Calls run concurrently: a call that missed is running its function, and stores the result
at any later time. A call that raises — while it is bound, looked up, run or serialized —
changes nothing but that it ends; a `set` that fails may have written its payload. The
cache underneath is `Cache` over its stores. Python objects, `str`, and the two directions
of `serde` are parameters.

## What is proved

* `scoping` — in every run in which no call's key values are all among those of an earlier
  stored call with another key-argument tuple, a call is served only what the function
  returned on an earlier call with its own tuple.
* `keysApart_of_single` — with one key parameter, or none, every run is such a run.
* `scoping_fails` — with two, a call is served the value of the call with the two swapped.
-/

namespace Semisweet.Python

open Semisweet.Core Semisweet.Foundations Semisweet.Protocol

variable {R : Type} [Field R] [LinearOrder R] {Obj : Type}

/-- `dumps` and `loads`; either may raise. -/
structure Serde (Obj : Type) where
  /-- `dumps`. -/
  dumps : Obj → Option (List UInt8)
  /-- `loads`. -/
  loads : List UInt8 → Option Obj

/-- `value` is `result`, serialized and read back. -/
def Serde.Restores (serde : Serde Obj) (result value : Obj) : Prop :=
  ∃ bytes, serde.dumps result = some bytes ∧ serde.loads bytes = some value

/-- A decorated function: the parameters its lookups are made of, and how arguments are
turned into text. -/
structure Decorated (Obj : Type) where
  /-- The parameter that is the query. -/
  queryParam : String
  /-- The parameters that are the keys. -/
  keys : List String
  /-- The parameter that is the context. -/
  context : Option String
  /-- `str`. -/
  str : Obj → String

/-- The set comprehension over `keys`, on `bound.arguments` with the defaults applied. -/
def Decorated.keyValues (fn : Decorated Obj) (arguments : String → Obj) : Finset String :=
  (fn.keys.map fun name => fn.str (arguments name)).toFinset

/-- A call of a decorated function. -/
structure Call (fn : Decorated Obj) where
  /-- `bound.arguments`, with the defaults applied. -/
  arguments : String → Obj
  /-- The order the set of key values is gone through in. -/
  order : List String
  /-- No key value is visited twice. -/
  nodup : order.Nodup
  /-- Exactly the key values are visited. -/
  toFinset_order : order.toFinset = fn.keyValues arguments

namespace Call

variable {fn : Decorated Obj} (call : Call fn)

/-- The `CacheQuery` of a call. An empty set is passed as no keys. -/
def cacheQuery : Except Error PyCacheQuery :=
  PyCacheQuery.new (fn.str (call.arguments fn.queryParam))
    (if fn.keyValues call.arguments = ∅ then none else some call.order)
    (fn.context.map fun name => fn.str (call.arguments name))

/-- The lookup of a call, as the daemon reconstructs it. -/
def lookup : Option Parts := do
  let q ← call.cacheQuery.toOption
  (reconstruct q.query q.keys q.context).toOption

/-- The key-argument tuple of a call: the value per parameter, in order. -/
def keyTuple : List String := fn.keys.map fun name => trim (fn.str (call.arguments name))

end Call

/-- The cache, and the calls whose function is running. -/
structure State (R : Type) [Field R] (fn : Decorated Obj) where
  /-- The stores of the cache. -/
  stores : Stores R
  /-- The calls that missed and have not ended. -/
  running : List (Call fn)

/-- What a call does. -/
inductive Action (R : Type) [Field R] (fn : Decorated Obj) where
  /-- It looks up, hits, and returns the value. -/
  | hit (call : Call fn) (iter : List (EntryId × VectorEntry R)) (value : Obj)
  /-- It looks up and misses. -/
  | miss (call : Call fn) (iter : List (EntryId × VectorEntry R))
  /-- The function returns the result, which is stored. -/
  | store (call : Call fn) (result : Obj)
  /-- The function returns the result, and the store fails. -/
  | storeFailed (call : Call fn) (result : Obj)
  /-- The function raises, or its result does not serialize. -/
  | raised (call : Call fn)

variable (P : Platform R) (cache : Cache R) (fn : Decorated Obj) (serde : Serde Obj)

/-- One step of `wrapper`. -/
inductive WrapperStep : State R fn → Action R fn → State R fn → Prop
  /-- `get` returns a payload. -/
  | hit {s : State R fn} {call : Call fn} {parts : Parts} {iter : List (EntryId × VectorEntry R)}
      {bytes : List UInt8} {value : Obj} :
      call.lookup = some parts → Enumerates iter (s.stores.vector.entries cache.ns) →
        cache.get P s.stores iter parts = .ok (some bytes) → serde.loads bytes = some value →
          WrapperStep s (.hit call iter value) s
  /-- `get` returns nothing. -/
  | miss {s : State R fn} {call : Call fn} {parts : Parts} {iter : List (EntryId × VectorEntry R)} :
      call.lookup = some parts → Enumerates iter (s.stores.vector.entries cache.ns) →
        cache.get P s.stores iter parts = .ok none →
          WrapperStep s (.miss call iter) ⟨s.stores, call :: s.running⟩
  /-- `set` succeeds. -/
  | store {stores stores' : Stores R} {l₁ l₂ : List (Call fn)} {call : Call fn} {parts : Parts}
      {result : Obj} {bytes : List UInt8} :
      call.lookup = some parts → serde.dumps result = some bytes →
        cache.set P stores parts bytes = (stores', .ok ()) →
          WrapperStep ⟨stores, l₁ ++ call :: l₂⟩ (.store call result) ⟨stores', l₁ ++ l₂⟩
  /-- `set` fails. -/
  | storeFailed {stores stores' : Stores R} {l₁ l₂ : List (Call fn)} {call : Call fn}
      {parts : Parts}
      {result : Obj} {bytes : List UInt8} {e : Error} :
      call.lookup = some parts → serde.dumps result = some bytes →
        cache.set P stores parts bytes = (stores', .error e) →
          WrapperStep ⟨stores, l₁ ++ call :: l₂⟩ (.storeFailed call result) ⟨stores', l₁ ++ l₂⟩
  /-- No result is stored. -/
  | raised {stores : Stores R} {l₁ l₂ : List (Call fn)} {call : Call fn} :
      WrapperStep ⟨stores, l₁ ++ call :: l₂⟩ (.raised call) ⟨stores, l₁ ++ l₂⟩

/-- No call has been made. -/
def State.init (object : ObjectStore) : State R fn := ⟨Stores.fresh object, []⟩

/-- The calls of a decorated function, under a condition on them. -/
abbrev WrapperRun (object : ObjectStore) (ok : Guard (State R fn) (Action R fn)) :
    History (State R fn) (Action R fn) → State R fn → Prop :=
  Run (WrapperStep P cache fn serde) (State.init fn object) ok

variable {fn}

/-- The call a lookup is made for. -/
def Action.caller : Action R fn → Option (Call fn)
  | .hit call _ _ => some call
  | .miss call _ => some call
  | _ => none

/-- The call a result is stored for. -/
def Action.storer : Action R fn → Option (Call fn)
  | .store call _ => some call
  | .storeFailed call _ => some call
  | _ => none

/-- No two lookups the calls stored under share an id. -/
def LookupsDistinct (h : History (State R fn) (Action R fn)) : Prop :=
  ∀ t ∈ h, ∀ t' ∈ h, ∀ c c' p p', t.2.storer = some c → t'.2.storer = some c' → c.lookup = some p →
    c'.lookup = some p' → EntryId.derive P.newV5 p = EntryId.derive P.newV5 p' → p = p'

/-- **Exact-match scoping**: whatever a call is served, the function returned it on an earlier
call with the same key-argument tuple. -/
def Scoped (h : History (State R fn) (Action R fn)) : Prop :=
  ∀ h₁ s call iter value h₂, h = h₁ ++ (s, .hit call iter value) :: h₂ →
    ∃ s₀ earlier result, (s₀, Action.store earlier result) ∈ h₁ ∧ earlier.keyTuple = call.keyTuple ∧
      serde.Restores result value

/-- A call whose key values are all among those of an earlier stored call has the same
key-argument tuple. -/
def KeysApart : Guard (State R fn) (Action R fn) := fun h _ a =>
  ∀ call, a.caller = some call → ∀ t ∈ h, ∀ earlier, t.2.storer = some earlier →
    call.keyTuple ⊆ earlier.keyTuple → earlier.keyTuple = call.keyTuple

variable {P cache serde}

/-- The keys of a call's lookup are its key values, trimmed. -/
theorem Call.keys_of_lookup {call : Call fn} {parts : Parts} (h : call.lookup = some parts) :
    parts.keys.image Key.asStr = call.keyTuple.toFinset := by
  simp only [Call.lookup, Option.bind_eq_bind, Option.bind_eq_some_iff] at h
  obtain ⟨q, hq, hparts⟩ := h
  cases hc : call.cacheQuery with
  | error e => simp [hc, Except.toOption] at hq
  | ok q' =>
    obtain rfl : q' = q := by simpa [hc, Except.toOption] using hq
    cases hr : reconstruct q'.query q'.keys q'.context with
    | error e => simp [hr, Except.toOption] at hparts
    | ok parts' =>
      obtain rfl : parts' = parts := by simpa [hr, Except.toOption] using hparts
      have hvalues :
          ((if fn.keyValues call.arguments = ∅ then none else some call.order).getD []).toFinset =
            fn.keyValues call.arguments := by
        split
        · rename_i hempty
          simp [hempty]
        · exact call.toFinset_order
      have hmap : ∀ l : List String, (l.map trim).toFinset = l.toFinset.image trim := fun l => by
        ext
        simp
      rw [keys_of_reconstruct hr, PyCacheQuery.keys_of_new hc, List.map_map,
        show trim ∘ trim = trim from
        funext trim_trim, hmap, hvalues, Decorated.keyValues, ← hmap, List.map_map]
      rfl

/-- What a step does to the cache, if it stores a result. -/
def Action.Does (serde : Serde Obj) (a : Action R fn) (op : Op R) : Prop :=
  ∃ call result parts bytes, call.lookup = some parts ∧ serde.dumps result = some bytes ∧
    (a = .store call result ∧ op = .set parts bytes ∨
      a = .storeFailed call result ∧ op = .setFailed parts bytes)

/-- **Every run is calls on the cache underneath**, each of them made by a step of the run. -/
theorem calls_of_run {object : ObjectStore} {ok : Guard (State R fn) (Action R fn)}
    {h : History (State R fn) (Action R fn)} {s : State R fn}
    (hrun : WrapperRun P cache fn serde object ok h s) :
    ∃ g, Calls P cache object g s.stores ∧ ∀ c ∈ g, ∃ t ∈ h, t.2.Does serde c.2 := by
  induction hrun with
  | start => exact ⟨[], .start, by simp⟩
  | @next h s s' a hr hok hstep ih =>
    obtain ⟨g, hcalls, hdoes⟩ := ih
    have hold : ∀ c ∈ g, ∃ t ∈ h ++ [(s, a)], t.2.Does serde c.2 := fun c hc => by
      obtain ⟨t, ht, hd⟩ := hdoes c hc
      exact ⟨t, List.mem_append_left _ ht, hd⟩
    -- a step that stores a result is one more call
    have hnew : ∀ op, Step P cache s.stores op s'.stores → a.Does serde op →
        ∃ g, Calls P cache object g s'.stores ∧
          ∀ c ∈ g, ∃ t ∈ h ++ [(s, a)], t.2.Does serde c.2 := by
      intro op hop hd
      refine ⟨g ++ [(s.stores, op)], .next hcalls trivial hop, fun c hc => ?_⟩
      rcases List.mem_append.mp hc with hc | hc
      · exact hold c hc
      · rw [List.mem_singleton] at hc
        exact ⟨(s, a), by simp, hc ▸ hd⟩
    cases hstep with
    | hit _ _ _ _ => exact ⟨g, hcalls, hold⟩
    | miss _ _ _ => exact ⟨g, hcalls, hold⟩
    | raised => exact ⟨g, hcalls, hold⟩
    | store hlookup hdumps hset =>
      exact hnew _ (.set hset) ⟨_, _, _, _, hlookup, hdumps, .inl ⟨rfl, rfl⟩⟩
    | storeFailed hlookup hdumps hset =>
      exact hnew _ (.setFailed hset) ⟨_, _, _, _, hlookup, hdumps, .inr ⟨rfl, rfl⟩⟩

omit [LinearOrder R] in
/-- The cache's history is free of collisions if the stored lookups are distinct. -/
theorem collisionFree_of_does {h : History (State R fn) (Action R fn)}
    {g : History (Stores R) (Op R)} (hdistinct : LookupsDistinct P h)
    (hdoes : ∀ c ∈ g, ∃ t ∈ h, t.2.Does serde c.2) : CollisionFree P g := by
  have hstorer : ∀ p, WasSet g p →
      ∃ t ∈ h, ∃ call, t.2.storer = some call ∧ call.lookup = some p := by
    rintro p ⟨s, value, hm | hm⟩ <;>
      obtain ⟨t, ht, call, result, parts, bytes, hl, -, hop⟩ := hdoes _ hm <;>
      rcases hop with ⟨ha, hop⟩ | ⟨ha, hop⟩ <;> cases hop <;>
        exact ⟨t, ht, call, by rw [ha]; rfl, hl⟩
  intro p p' hp hp' hid
  obtain ⟨t, ht, c, hc, hl⟩ := hstorer p hp
  obtain ⟨t', ht', c', hc', hl'⟩ := hstorer p' hp'
  exact hdistinct t ht t' ht' c c' p p' hc hc' hl hl' hid

/-- **Scoping**: in every run whose calls keep their key values apart, a call is served only
what the function returned on an earlier call with the same key-argument tuple. -/
theorem scoping {object : ObjectStore} {h : History (State R fn) (Action R fn)} {s : State R fn}
    (hrun : WrapperRun P cache fn serde object KeysApart h s) (hdistinct : LookupsDistinct P h) :
    Scoped serde h := by
  rintro h₁ s₁ call iter value h₂ rfl
  obtain ⟨s', hbefore, hapart, hstep, -⟩ := hrun.split
  obtain ⟨g, hcalls, hdoes⟩ := calls_of_run hbefore
  have hfree : CollisionFree P g := by
    refine collisionFree_of_does (fun t ht t' ht' => ?_) hdoes
    exact hdistinct t (List.mem_append_left _ ht) t' (List.mem_append_left _ ht')
  cases hstep with
  | @hit _ _ parts _ bytes _ hlookup hiter hget hloads =>
    obtain ⟨id, stored, ⟨-, g₁, st, g₂, rfl, -⟩, hsub, -⟩ :=
      hit_justified hcalls hfree hiter parts bytes hget
    obtain ⟨t, ht, earlier, result, p, b, hlookup', hdumps, hop⟩ :=
      hdoes (st, .set stored bytes) (by simp)
    obtain ⟨ha, hop⟩ := hop.resolve_right (by rintro ⟨-, hop⟩; cases hop)
    cases hop
    refine ⟨t.1, earlier, result, ha ▸ ht, ?_, bytes, hdumps, hloads⟩
    -- the served entry has all the keys of the lookup
    refine hapart call rfl t ht earlier (by rw [ha]; rfl) fun k hk => ?_
    have himage := Finset.image_subset_image (f := Key.asStr) hsub
    rw [Call.keys_of_lookup hlookup, Call.keys_of_lookup hlookup'] at himage
    exact List.mem_toFinset.mp (himage (List.mem_toFinset.mpr hk))

omit [LinearOrder R] in
/-- With one key parameter, or none, the calls of every run keep their key values apart. -/
theorem keysApart_of_single (hsingle : fn.keys.length ≤ 1) (h : History (State R fn) (Action R fn))
    (s : State R fn) (a : Action R fn) : KeysApart h s a := by
  intro call _ t _ earlier _ hsub
  unfold Call.keyTuple at hsub ⊢
  match hk : fn.keys, hsingle with
  | [], _ => rfl
  | [name], _ =>
    rw [hk] at hsub
    simpa [eq_comm] using hsub

/-! ### Two key parameters -/

namespace Sample

open Semisweet.Core.Sample

/-- `@cache(query="q", keys=("first", "second"))`, on text. -/
def decorated : Decorated String := ⟨"q", ["first", "second"], none, id⟩

/-- The arguments of a call with these key values. -/
def arguments (first second : String) : String → String
  | "first" => first
  | "second" => second
  | _ => "q"

/-- The call with `a` and `b`. -/
def callAB : Call decorated := ⟨arguments "a" "b", ["b", "a"], by decide, by decide⟩

/-- The call with `b` and `a`. -/
def callBA : Call decorated := ⟨arguments "b" "a", ["b", "a"], by decide, by decide⟩

/-- `dumps("r")`. -/
def pickled : List UInt8 := [0, 128, 5, 149, 5, 0, 0, 0, 0, 0, 0, 0, 140, 1, 114, 148, 46]

/-- `serde` on the one result. -/
def serdeR : Serde String :=
  ⟨fun _ => some pickled, fun bytes => if bytes = pickled then some "r" else none⟩

theorem lookup_AB : callAB.lookup = some both := by decide

theorem lookup_BA : callBA.lookup = some both := by decide

/-- The stores once the result is stored. -/
def stored : Stores ℚ := (small.set platform empty both pickled).1

theorem set_both : small.set platform empty both pickled = (stored, .ok ()) := rfl

theorem enumerates_stored :
    Enumerates [(EntryId.derive platform.newV5 both, Core.Sample.entry both)]
      (stored.vector.entries small.ns) :=
  enumerates_set rfl set_both .empty rfl

theorem get_both :
    small.get platform stored [(EntryId.derive platform.newV5 both, Core.Sample.entry both)] both =
    .ok (some pickled) := by
  have hfind : (small.findMatch platform stored
    [(EntryId.derive platform.newV5 both, Core.Sample.entry both)]
      both).map (Option.map ScoredHit.id) = .ok (some (EntryId.derive platform.newV5 both)) := by
    simp only [Core.Sample.entry, derive_both]
    decide +kernel
  rw [small.get_eq platform hfind]
  simp [(small.set_eq_ok platform set_both).choose_spec.2.2, ObjectStore.put]

/-- A call with `a` and `b` misses and stores its result; then `call` hits. -/
def history (call : Call decorated) : History (State ℚ decorated) (Action ℚ decorated) :=
  [(⟨empty, []⟩, .miss callAB []), (⟨empty, [callAB]⟩, .store callAB "r"),
    (⟨stored, []⟩, .hit call [(EntryId.derive platform.newV5 both, Core.Sample.entry both)] "r")]

/-- Both calls run so: they have one lookup. -/
theorem run_history {ok : Guard (State ℚ decorated) (Action ℚ decorated)} {call : Call decorated}
    (hlookup : call.lookup = some both)
    (hok : ∀ h₁ t h₂, history call = h₁ ++ t :: h₂ → ok h₁ t.1 t.2) :
    WrapperRun platform small decorated serdeR (fun _ _ => none) ok (history call)
      ⟨stored, []⟩ := by
  have hmiss : WrapperStep platform small decorated serdeR ⟨empty, []⟩ (.miss callAB [])
    ⟨empty, [callAB]⟩ :=
    .miss lookup_AB .empty rfl
  have hstore : WrapperStep platform small decorated serdeR ⟨empty, [] ++ callAB :: []⟩
    (.store callAB "r")
      ⟨stored, [] ++ []⟩ :=
    .store lookup_AB rfl set_both
  have hhit : WrapperStep platform small decorated serdeR ⟨stored, []⟩
      (.hit call [(EntryId.derive platform.newV5 both, Core.Sample.entry both)] "r") ⟨stored, []⟩ :=
    .hit hlookup enumerates_stored get_both rfl
  exact (((Run.start.next (hok [] _ _ rfl) hmiss).next (hok [_] _ _ rfl) hstore).next
    (hok [_, _] _ _ rfl) hhit)

/-- Only the first call stores. -/
theorem storer_history {call c : Call decorated} {t : State ℚ decorated × Action ℚ decorated}
    (ht : t ∈ history call) (hc : t.2.storer = some c) : c = callAB := by
  simp only [history, List.mem_cons, List.not_mem_nil, or_false] at ht
  rcases ht with rfl | rfl | rfl <;> simp_all [Action.storer]

theorem lookupsDistinct_history (call : Call decorated) :
    LookupsDistinct platform (history call) := by
  intro t ht t' ht' c c' p p' hc hc' hp hp' _
  rw [storer_history ht hc] at hp
  rw [storer_history ht' hc'] at hp'
  exact Option.some.inj (hp.symm.trans hp')

theorem keysApart_history {h₁ h₂ : History (State ℚ decorated) (Action ℚ decorated)}
    {t : State ℚ decorated × Action ℚ decorated} (heq : history callAB = h₁ ++ t :: h₂) :
    KeysApart h₁ t.1 t.2 := by
  intro call hcall t' ht' earlier hearlier _
  have ht : t ∈ history callAB := by
    rw [heq]
    simp
  have hcaller : call = callAB := by
    simp only [history, List.mem_cons, List.not_mem_nil, or_false] at ht
    rcases ht with rfl | rfl | rfl <;> simp_all [Action.caller]
  rw [hcaller, storer_history (by rw [heq]; exact List.mem_append_left _ ht') hearlier]

end Sample

/-- The call with `a` and `b`, made again, is served its own result. -/
theorem scoping_again : Scoped Sample.serdeR (Sample.history Sample.callAB) :=
  scoping (Sample.run_history Sample.lookup_AB fun _ _ _ heq => Sample.keysApart_history heq)
    (Sample.lookupsDistinct_history _)

/-- **Served the value of another call**: the call with `b` and `a` is served what the function
returned for `a` and `b`. -/
theorem scoping_fails : ¬ ∀ (h : History (State ℚ Sample.decorated) (Action ℚ Sample.decorated)) s,
    WrapperRun Core.Sample.platform Core.Sample.small Sample.decorated Sample.serdeR
      (fun _ _ => none) Always h s →
      LookupsDistinct Core.Sample.platform h → Scoped Sample.serdeR h := by
  intro hall
  obtain ⟨s₀, earlier, result, hin, htuple, -⟩ :=
    hall _ _ (Sample.run_history Sample.lookup_BA fun _ _ _ _ => trivial)
      (Sample.lookupsDistinct_history _)
      [_, _] _ _ _ _ [] rfl
  obtain ⟨-, rfl, -⟩ : s₀ = ⟨Core.Sample.empty, [Sample.callAB]⟩ ∧ earlier = Sample.callAB ∧
    result = "r" := by
    simpa using hin
  revert htuple
  decide

end Semisweet.Python
