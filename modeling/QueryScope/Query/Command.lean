/-!
# Commands

The server command a query runs. Whether the server can use an index for it, whether it
returns a cursor (and so takes `.sort()` and `.limit()`), and whether it takes an update
document are properties of the command alone.
-/

namespace QueryScope

/-- A server command. -/
inductive Command where
  | aggregate
  | countDocuments
  | deleteMany
  | deleteOne
  | distinct
  | estimatedDocumentCount
  | findMany
  | findOne
  | findOneAndDelete
  | findOneAndReplace
  | findOneAndUpdate
  | insertMany
  | insertOne
  | replaceOne
  | updateMany
  | updateOne
  | upsert
  | runCommand
  | unknown
deriving DecidableEq, Repr, Inhabited

namespace Command

/-- Every command, in declaration order. -/
def known : List Command :=
  [.aggregate, .countDocuments, .deleteMany, .deleteOne, .distinct, .estimatedDocumentCount,
    .findMany, .findOne, .findOneAndDelete, .findOneAndReplace, .findOneAndUpdate, .insertMany,
    .insertOne, .replaceOne, .updateMany, .updateOne, .upsert, .runCommand, .unknown]

/-- The shell spelling of the command. -/
def spelling : Command → String
  | .aggregate => "aggregate"
  | .countDocuments => "countDocuments"
  | .deleteMany => "deleteMany"
  | .deleteOne => "deleteOne"
  | .distinct => "distinct"
  | .estimatedDocumentCount => "estimatedDocumentCount"
  | .findMany => "find"
  | .findOne => "findOne"
  | .findOneAndDelete => "findOneAndDelete"
  | .findOneAndReplace => "findOneAndReplace"
  | .findOneAndUpdate => "findOneAndUpdate"
  | .insertMany => "insertMany"
  | .insertOne => "insertOne"
  | .replaceOne => "replaceOne"
  | .updateMany => "updateMany"
  | .updateOne => "updateOne"
  | .upsert => "upsert"
  | .runCommand => "runCommand"
  | .unknown => "<unknown>"

/-- The name the interchange form writes. -/
def label : Command → String
  | .aggregate => "Aggregate"
  | .countDocuments => "CountDocuments"
  | .deleteMany => "DeleteMany"
  | .deleteOne => "DeleteOne"
  | .distinct => "Distinct"
  | .estimatedDocumentCount => "EstimatedDocumentCount"
  | .findMany => "FindMany"
  | .findOne => "FindOne"
  | .findOneAndDelete => "FindOneAndDelete"
  | .findOneAndReplace => "FindOneAndReplace"
  | .findOneAndUpdate => "FindOneAndUpdate"
  | .insertMany => "InsertMany"
  | .insertOne => "InsertOne"
  | .replaceOne => "ReplaceOne"
  | .updateMany => "UpdateMany"
  | .updateOne => "UpdateOne"
  | .upsert => "Upsert"
  | .runCommand => "RunCommand"
  | .unknown => "Unknown"

/-- The command with an interchange name. -/
def ofLabel? (s : String) : Option Command :=
  known.find? (·.label == s)

/-- Whether the server may use an index to run the command. -/
def usesIndexes : Command → Bool
  | .insertMany | .insertOne | .replaceOne | .runCommand | .unknown => false
  | _ => true

/-- Commands that return a cursor. -/
def returnsCursor : Command → Bool
  | .findMany | .aggregate => true
  | _ => false

/-- Commands that take an update document. -/
def updatesDocuments : Command → Bool
  | .updateOne | .updateMany | .findOneAndUpdate | .upsert => true
  | _ => false

end Command

end QueryScope
