import Semisweet.Protocol.Messages

/-!
# The Python cache query

`CacheQuery` (`src/python.rs`): the lookup a Python caller builds. The constructor validates
its arguments as the daemon will, so that a query object always names a lookup.

The keys are given as a set, and gone through in the order of a hash set. The trimmed keys
are kept as a list, which may name a key twice: `{"a", " a"}` is two keys that trim to one.
-/

namespace Semisweet.Python

open Semisweet.Core Semisweet.Protocol

/-- `PyCacheQuery`. -/
structure PyCacheQuery where
  /-- The query text, trimmed. -/
  query : String
  /-- The keys, trimmed, in the order of the set they came from. -/
  keys : List String
  /-- The context, trimmed. -/
  context : Option String
  deriving DecidableEq

namespace PyCacheQuery

/-- `PyCacheQuery::new`, the key set gone through in the order `keys`. -/
def new (query : String) (keys : Option (List String)) (context : Option String) :
    Except Error PyCacheQuery := do
  let query ← QueryText.asStr <$> QueryText.new query
  let validated ← (keys.getD []).mapM fun key => Key.asStr <$> Key.new key
  let context ← context.mapM fun context => Context.asStr <$> Context.new context
  .ok ⟨query, validated, context⟩

/-- The keys of a query object are the given ones, trimmed. -/
theorem keys_of_new {query : String} {keys : Option (List String)} {context : Option String}
    {q : PyCacheQuery} (h : new query keys context = .ok q) : q.keys = (keys.getD []).map trim := by
  simp only [new, bind_eq_ok, Except.ok.injEq] at h
  obtain ⟨-, -, validated, hv, -, -, rfl⟩ := h
  dsimp only
  generalize keys.getD [] = ks at hv
  induction ks generalizing validated with
  | nil =>
    simp only [List.mapM_nil, pure, Except.pure, Except.ok.injEq] at hv
    exact hv.symm
  | cons k ks ih =>
    simp only [List.mapM_cons, bind_eq_ok, pure, Except.pure, Except.ok.injEq] at hv
    obtain ⟨t, ht, ts, hts, rfl⟩ := hv
    have htrim : t = trim k := by
      cases hk : Key.new k with
      | error e => simp [hk] at ht
      | ok key =>
        simp only [hk, Except.map_ok, Except.ok.injEq] at ht
        exact ht ▸ key_new_eq_ok.mp hk
    rw [ih ts hts, htrim, List.map_cons]

end PyCacheQuery

end Semisweet.Python
