/-!
# Library names the dialects recognise

The fully qualified names of the MongoDB Java driver, of Spring Data MongoDB and of the JDK
collection factories, as calls and types in host programs carry them.
-/

namespace QueryScope

namespace DriverName

def mongoClient : String := "com.mongodb.client.MongoClient"
def mongoCluster : String := "com.mongodb.client.MongoCluster"
def mongoDatabase : String := "com.mongodb.client.MongoDatabase"
def mongoCollection : String := "com.mongodb.client.MongoCollection"
def reactiveClient : String := "com.mongodb.reactivestreams.client.MongoClient"
def reactiveDatabase : String := "com.mongodb.reactivestreams.client.MongoDatabase"
def reactiveCollection : String := "com.mongodb.reactivestreams.client.MongoCollection"
def clientSession : String := "com.mongodb.client.ClientSession"
def mongoIterable : String := "com.mongodb.client.MongoIterable"
def findIterable : String := "com.mongodb.client.FindIterable"
def aggregateIterable : String := "com.mongodb.client.AggregateIterable"
def filters : String := "com.mongodb.client.model.Filters"
def updates : String := "com.mongodb.client.model.Updates"
def aggregates : String := "com.mongodb.client.model.Aggregates"
def projections : String := "com.mongodb.client.model.Projections"
def sorts : String := "com.mongodb.client.model.Sorts"
def accumulators : String := "com.mongodb.client.model.Accumulators"
def field : String := "com.mongodb.client.model.Field"
def objectId : String := "org.bson.types.ObjectId"

/-- Whether a type is a client. -/
def isClient (n : String) : Bool := n == mongoClient || n == mongoCluster || n == reactiveClient

/-- Whether a type is a database handle. -/
def isDatabase (n : String) : Bool := n == mongoDatabase || n == reactiveDatabase

/-- Whether a type is a collection handle. -/
def isCollection (n : String) : Bool := n == mongoCollection || n == reactiveCollection

/-- Whether a type is a cursor. -/
def isCursor (n : String) : Bool := n == mongoIterable || n == findIterable || n == aggregateIterable

end DriverName

namespace SpringName

def criteria : String := "org.springframework.data.mongodb.core.query.Criteria"
def query : String := "org.springframework.data.mongodb.core.query.Query"
def document : String := "org.springframework.data.mongodb.core.mapping.Document"
def update : String := "org.springframework.data.mongodb.core.query.Update"
def aggregation : String := "org.springframework.data.mongodb.core.aggregation.Aggregation"
def fields : String := "org.springframework.data.mongodb.core.aggregation.Fields"
def projectionOperation : String :=
  "org.springframework.data.mongodb.core.aggregation.ProjectionOperation"
def projectionOperationBuilder : String :=
  "org.springframework.data.mongodb.core.aggregation.ProjectionOperation.ProjectionOperationBuilder"
def sortOperation : String := "org.springframework.data.mongodb.core.aggregation.SortOperation"
def groupOperation : String := "org.springframework.data.mongodb.core.aggregation.GroupOperation"
def groupOperationBuilder : String :=
  "org.springframework.data.mongodb.core.aggregation.GroupOperation.GroupOperationBuilder"
def addFieldsOperation : String :=
  "org.springframework.data.mongodb.core.aggregation.AddFieldsOperation"
def addFieldsOperationBuilder : String :=
  "org.springframework.data.mongodb.core.aggregation.AddFieldsOperation.AddFieldsOperationBuilder"
def valueAppender : String :=
  "org.springframework.data.mongodb.core.aggregation.AddFieldsOperation.AddFieldsOperationBuilder.ValueAppender"
def sort : String := "org.springframework.data.domain.Sort"
def direction : String := "org.springframework.data.domain.Sort.Direction"
def order : String := "org.springframework.data.domain.Sort.Order"
def mongoTemplate : String := "org.springframework.data.mongodb.core.MongoTemplate"

/-- The types whose calls build an aggregation stage. -/
def stageTypes : List String :=
  [aggregation, projectionOperation, projectionOperationBuilder, sortOperation, groupOperation,
    groupOperationBuilder, addFieldsOperation, addFieldsOperationBuilder, valueAppender]

/-- The simple names of the interfaces offering template operations. -/
def operationInterfaces : List String :=
  ["MongoTemplate", "MongoOperations", "FluentMongoOperations", "ExecutableAggregationOperation",
    "ExecutableFindOperation", "ExecutableInsertOperation", "ExecutableRemoveOperation",
    "ExecutableUpdateOperation"]

/-- Whether a type is, or is nested in, an interface offering template operations. -/
def isTemplateOperation (declaringType : String) : Bool :=
  operationInterfaces.any fun i => (declaringType.splitOn i).length > 1

end SpringName

namespace JdkName

def list : String := "java.util.List"
def arrays : String := "java.util.Arrays"
def collections : String := "java.util.Collections"

end JdkName

end QueryScope
