import QueryScope.Session.Tracker
import QueryScope.Query.Node
/-!
# The query cache

A session parses the query at an anchor at most once per generation of the anchor. The cache
keeps, per anchor, the generation it parsed at and the result, a query or none, and an index
of the queries by the namespace they target. A parse gives its query a fresh stamp, so two
answers are the same query exactly when their stamps agree.

The index holds an entry per parse of a query with a known namespace. Registering a query
sweeps the index first: entries of the same anchor, and entries whose anchor has moved to
another generation, are dropped. The siblings of a query are the queries of other anchors in
its namespace whose entries are up to date, in the order they were registered.

The index is one list of entries, each carrying its namespace; a map from a namespace to the
list of its entries, with no namespace left without entries, is this list grouped by
namespace, and filtering keeps each group in registration order. Entries hold their queries
outright. Where an index holds its queries weakly, so that the sweep and the look-up of
siblings also skip a query that nothing else holds any more, this model takes every query the
cache has answered to be still held by whoever asked for it. Along runs whose discards go
through the cache the two agree: every up-to-date entry is the query the cache remembers for
its anchor (`QueryCache.Indexed`), which the cache itself holds, and an entry out of date is
dropped for its generation anyway.
-/

namespace QueryScope

/-- A parsed query and the stamp of its parse. -/
structure CachedQuery where
  stamp : Nat
  node : Node

/-- What the cache remembers about an anchor: the generation it parsed at and the result. -/
structure MemoEntry where
  generation : Nat
  query : Option CachedQuery

/-- An entry of the namespace index. -/
structure IndexEntry where
  ns : Namespace
  anchor : Nat
  generation : Nat
  query : CachedQuery

/-- The query cache of a session, with its tracker. -/
structure QueryCache where
  tracker : SourceTracker := {}
  memo : List (Nat × MemoEntry) := []
  index : List IndexEntry := []
  parses : Nat := 0

namespace QueryCache

/-- Whether an index entry is of its anchor's current generation. -/
def current (c : QueryCache) (e : IndexEntry) : Bool := e.generation == c.tracker.generation e.anchor

/-- Drop the index entries of an anchor and those out of date. -/
def sweep (c : QueryCache) (replaced : Option Nat) : QueryCache :=
  { c with index := c.index.filter fun e => some e.anchor != replaced && c.current e }

/-- Parse the query at an anchor, remember it and index it. -/
def parseAt (c : QueryCache) (anchor g : Nat) (parse : Nat → Option Node) :
    Option CachedQuery × QueryCache :=
  let parsed := (parse anchor).map fun n => (⟨c.parses, n⟩ : CachedQuery)
  let parses := if parsed.isSome then c.parses + 1 else c.parses
  let c := { c with memo := Keyed.set anchor ⟨g, parsed⟩ c.memo, parses }
  match parsed with
  | some q =>
    match q.node.namespace? with
    | some ns =>
      let c := c.sweep (some anchor)
      (parsed, { c with index := c.index ++ [⟨ns, anchor, g, q⟩] })
    | none => (parsed, c)
  | none => (parsed, c)

/-- The result remembered for an anchor, when it was parsed at the anchor's current
generation. -/
def memoized (c : QueryCache) (anchor : Nat) : Option (Option CachedQuery) :=
  match c.memo.lookup anchor with
  | some e => if e.generation == c.tracker.generation anchor then some e.query else none
  | none => none

/-- The query at an anchor, parsed by `parse` unless the cache holds a result of the anchor's
current generation. -/
def queryAt (c : QueryCache) (anchor : Nat) (parse : Nat → Option Node) :
    Option CachedQuery × QueryCache :=
  match c.memoized anchor with
  | some q => (q, c)
  | none => c.parseAt anchor (c.tracker.generation anchor) parse

/-- The up-to-date queries of other anchors that target the namespace of a query. -/
def siblings (c : QueryCache) (q : CachedQuery) : List CachedQuery :=
  match q.node.namespace? with
  | none => []
  | some ns =>
    (c.index.filter fun e =>
      e.ns == ns && Origin.expr e.anchor != q.node.source && c.current e &&
        e.query.stamp != q.stamp).map
      (·.query)

/-- Force the next look-up of an anchor to parse again. -/
def invalidate (c : QueryCache) (anchor : Nat) : QueryCache :=
  { c with tracker := (c.tracker.touch anchor).2, memo := Keyed.erase anchor c.memo }

/-- Forget an anchor that its host discarded. -/
def discard (c : QueryCache) (anchor : Nat) : QueryCache :=
  { c with tracker := c.tracker.discard anchor, memo := Keyed.erase anchor c.memo }.sweep (some anchor)

/-- The number of anchors whose remembered result is a query. -/
def size (c : QueryCache) : Nat := (c.memo.filter fun e => e.2.query.isSome).length

/-- The number of entries of the namespace index, up to date or not. -/
def indexed (c : QueryCache) : Nat := c.index.length

end QueryCache

end QueryScope
