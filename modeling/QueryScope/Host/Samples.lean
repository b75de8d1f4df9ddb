import QueryScope.Host.Builder
import QueryScope.Lowering.Names
/-!
# Sample programs

Small host programs holding one typical query each, with the expression that anchors it:
a find by equality, a find of everything and an update through the Java driver, a find on a
handle its method is given, many finds on one namespace, and a find and an update through
Spring templates.
-/

namespace QueryScope

namespace Samples

open Builder

/-- A program with its query anchors. -/
structure Sample where
  program : Program
  anchors : List Nat

/-- The class `com.example.Repository` in `Repository.java`. -/
def repository : Building Nat := do
  let f ← file "Repository.java"
  declareClass f "com.example.Repository" .plain

/-- `client.getDatabase(database).getCollection(collection)` in a new method. -/
def collectionIn (c : Nat) (methodName database collection : String) : Building Nat := do
  let m ← method c methodName none
  let client ← param m "client" (.named DriverName.mongoClient)
  let clientRef ← localRef client
  let db ← literal (.string database)
  let db ← call clientRef DriverName.mongoClient "getDatabase" [db]
  let coll ← literal (.string collection)
  call db DriverName.mongoDatabase "getCollection" [coll]

/-- `Filters.eq(field, "value")`. -/
def equality (field value : String) : Building Nat := do
  let f ← literal (.string field)
  let v ← literal (.string value)
  staticCall DriverName.filters "eq" [f, v]

/-- Run a building and keep the program with the anchors it returns. -/
def build (b : Building (List Nat)) : Sample :=
  let (anchors, s) := b.run {}
  ⟨s.program, anchors⟩

/-- `collection.find(Filters.eq(field, "value"))`. -/
def findEq (database collection field value : String) : Sample := build do
  let c ← repository
  let coll ← collectionIn c "query" database collection
  let filter ← equality field value
  pure [← call coll DriverName.mongoCollection "find" [filter]]

/-- `collection.find()`. -/
def findAll (database collection : String) : Sample := build do
  let c ← repository
  let coll ← collectionIn c "query" database collection
  pure [← call coll DriverName.mongoCollection "find" []]

/-- `collection.updateMany(Filters.empty(), Updates.set(field, "value"))`. -/
def updateSet (database collection field value : String) : Sample := build do
  let c ← repository
  let coll ← collectionIn c "query" database collection
  let filter ← staticCall DriverName.filters "empty" []
  let f ← literal (.string field)
  let v ← literal (.string value)
  let set ← staticCall DriverName.updates "set" [f, v]
  pure [← call coll DriverName.mongoCollection "updateMany" [filter, set]]

/-- `find(database, name)` runs `database.getCollection(name).find()`, and `run` calls it as
`find(client.getDatabase(database), collection)`: the handle's names are known only at the
call site. -/
def findThroughParameters (database collection : String) : Sample := build do
  let c ← repository
  let m ← method c "find" none
  let db ← param m "database" (.named DriverName.mongoDatabase)
  let name ← param m "name" .string
  let dbRef ← localRef db
  let nameRef ← localRef name
  let coll ← call dbRef DriverName.mongoDatabase "getCollection" [nameRef]
  let anchor ← call coll DriverName.mongoCollection "find" []
  let run ← method c "run" none
  let client ← param run "client" (.named DriverName.mongoClient)
  let clientRef ← localRef client
  let dbName ← literal (.string database)
  let dbCall ← call clientRef DriverName.mongoClient "getDatabase" [dbName]
  let collName ← literal (.string collection)
  let site ← invoke none m [dbCall, collName]
  let _ ← exprStmt site
  pure [anchor]

/-- `count` finds on one namespace, each in its own method `query<i>`. -/
def manyFinds (database collection : String) (count : Nat) : Sample := build do
  let c ← repository
  (List.range count).mapM fun i => do
    let coll ← collectionIn c ("query" ++ toString i) database collection
    let filter ← equality "status" ("status-" ++ toString i)
    call coll DriverName.mongoCollection "find" [filter]

/-- `template.find(query(where(field).is("value")), Book.class, collection)`; the anchor is
the criteria call. -/
def springFind (collection field value : String) : Sample := build do
  let f ← file "BookRepository.java"
  let repo ← declareClass f "com.example.BookRepository" .plain
  let m ← method repo "find" none
  let template ← param m "template" (.named SpringName.mongoTemplate)
  let templateRef ← localRef template
  let fieldLit ← literal (.string field)
  let whereCall ← staticCall SpringName.criteria "where" [fieldLit]
  let valueLit ← literal (.string value)
  let anchor ← call whereCall SpringName.criteria "is" [valueLit]
  let q ← staticCall SpringName.query "query" [anchor]
  let entity ← classLiteral (.named "com.example.Book")
  let coll ← literal (.string collection)
  let _ ← call templateRef SpringName.mongoTemplate "find" [q, entity, coll]
  pure [anchor]

/-- `template.updateFirst(query(where("title").is("Dune")), new Update().set(field, "value"),
Book.class, collection)`; the anchor is the criteria call. -/
def springUpdateSet (collection field value : String) : Sample := build do
  let f ← file "BookRepository.java"
  let repo ← declareClass f "com.example.BookRepository" .plain
  let m ← method repo "update" none
  let template ← param m "template" (.named SpringName.mongoTemplate)
  let templateRef ← localRef template
  let title ← literal (.string "title")
  let whereCall ← staticCall SpringName.criteria "where" [title]
  let dune ← literal (.string "Dune")
  let anchor ← call whereCall SpringName.criteria "is" [dune]
  let q ← staticCall SpringName.query "query" [anchor]
  let upd ← newObject (.named SpringName.update) []
  let fieldLit ← literal (.string field)
  let valueLit ← literal (.string value)
  let set ← call upd SpringName.update "set" [fieldLit, valueLit]
  let entity ← classLiteral (.named "com.example.Book")
  let coll ← literal (.string collection)
  let _ ← call templateRef SpringName.mongoTemplate "updateFirst" [q, set, entity, coll]
  pure [anchor]

end Samples

end QueryScope
