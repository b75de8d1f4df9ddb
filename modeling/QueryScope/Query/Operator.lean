/-!
# Query operators

The operators a query tree names: filter predicates and combinators, update operators,
aggregation stages and accumulators, projection and sort keys. Each has its shell spelling
(without the leading `$`) and its role in an index: equality, sort or range fields come first
to last in a compound index (the ESR rule), unions and the rest take no part.

An unrecognised spelling reads as `Operator.unknown`, whose spelling is
`<unknown operator>`.
-/

namespace QueryScope

/-- How an operator takes part in an index. -/
inductive Role where
  | equality
  | sort
  | range
  | union
  | irrelevant
deriving DecidableEq, Repr, Inhabited

/-- The name of a role as the interchange form writes it. -/
def Role.label : Role → String
  | .equality => "Equality"
  | .sort => "Sort"
  | .range => "Range"
  | .union => "Union"
  | .irrelevant => "Irrelevant"

/-- An operator of a query tree. -/
inductive Operator where
  | all
  | «and»
  | bitsAllClear
  | bitsAllSet
  | bitsAnyClear
  | bitsAnySet
  | combine
  | elemMatch
  | eq
  | exists
  | geoIntersects
  | geoWithin
  | geoWithinBox
  | geoWithinCenter
  | geoWithinCenterSphere
  | geoWithinPolygon
  | gt
  | gte
  | «in»
  | inc
  | lt
  | lte
  | ne
  | near
  | nearSphere
  | nin
  | nor
  | «not»
  | «or»
  | regex
  | «set»
  | setOnInsert
  | size
  | text
  | «type»
  | unset
  | «match»
  | project
  | include
  | exclude
  | group
  | sum
  | avg
  | first
  | last
  | top
  | topN
  | bottom
  | bottomN
  | max
  | min
  | push
  | pull
  | pullAll
  | pop
  | addToSet
  | sort
  | ascending
  | descending
  | addFields
  | unwind
  | limit
  | unknown
deriving DecidableEq, Repr, Inhabited

namespace Operator

/-- Every operator, in the order of their declaration. -/
def known : List Operator :=
  [.all, .«and», .bitsAllClear, .bitsAllSet, .bitsAnyClear, .bitsAnySet, .combine, .elemMatch,
    .eq, .exists, .geoIntersects, .geoWithin, .geoWithinBox, .geoWithinCenter,
    .geoWithinCenterSphere, .geoWithinPolygon, .gt, .gte, .«in», .inc, .lt, .lte, .ne, .near,
    .nearSphere, .nin, .nor, .«not», .«or», .regex, .«set», .setOnInsert, .size, .text, .«type»,
    .unset, .«match», .project, .include, .exclude, .group, .sum, .avg, .first, .last, .top,
    .topN, .bottom, .bottomN, .max, .min, .push, .pull, .pullAll, .pop, .addToSet, .sort,
    .ascending, .descending, .addFields, .unwind, .limit, .unknown]

/-- The shell spelling, without the leading `$`. -/
def spelling : Operator → String
  | .all => "all"
  | .«and» => "and"
  | .bitsAllClear => "bitsAllClear"
  | .bitsAllSet => "bitsAllSet"
  | .bitsAnyClear => "bitsAnyClear"
  | .bitsAnySet => "bitsAnySet"
  | .combine => "combine"
  | .elemMatch => "elemMatch"
  | .eq => "eq"
  | .exists => "exists"
  | .geoIntersects => "geoIntersects"
  | .geoWithin => "geoWithin"
  | .geoWithinBox => "geoWithinBox"
  | .geoWithinCenter => "geoWithinCenter"
  | .geoWithinCenterSphere => "geoWithinCenterSphere"
  | .geoWithinPolygon => "geoWithinPolygon"
  | .gt => "gt"
  | .gte => "gte"
  | .«in» => "in"
  | .inc => "inc"
  | .lt => "lt"
  | .lte => "lte"
  | .ne => "ne"
  | .near => "near"
  | .nearSphere => "nearSphere"
  | .nin => "nin"
  | .nor => "nor"
  | .«not» => "not"
  | .«or» => "or"
  | .regex => "regex"
  | .«set» => "set"
  | .setOnInsert => "setOnInsert"
  | .size => "size"
  | .text => "text"
  | .«type» => "type"
  | .unset => "unset"
  | .«match» => "match"
  | .project => "project"
  | .include => "include"
  | .exclude => "exclude"
  | .group => "group"
  | .sum => "sum"
  | .avg => "avg"
  | .first => "first"
  | .last => "last"
  | .top => "top"
  | .topN => "topN"
  | .bottom => "bottom"
  | .bottomN => "bottomN"
  | .max => "max"
  | .min => "min"
  | .push => "push"
  | .pull => "pull"
  | .pullAll => "pullAll"
  | .pop => "pop"
  | .addToSet => "addToSet"
  | .sort => "sort"
  | .ascending => "ascending"
  | .descending => "descending"
  | .addFields => "addFields"
  | .unwind => "unwind"
  | .limit => "limit"
  | .unknown => "<unknown operator>"

/-- The name the interchange form writes. -/
def label : Operator → String
  | .all => "All"
  | .«and» => "And"
  | .bitsAllClear => "BitsAllClear"
  | .bitsAllSet => "BitsAllSet"
  | .bitsAnyClear => "BitsAnyClear"
  | .bitsAnySet => "BitsAnySet"
  | .combine => "Combine"
  | .elemMatch => "ElemMatch"
  | .eq => "Eq"
  | .exists => "Exists"
  | .geoIntersects => "GeoIntersects"
  | .geoWithin => "GeoWithin"
  | .geoWithinBox => "GeoWithinBox"
  | .geoWithinCenter => "GeoWithinCenter"
  | .geoWithinCenterSphere => "GeoWithinCenterSphere"
  | .geoWithinPolygon => "GeoWithinPolygon"
  | .gt => "Gt"
  | .gte => "Gte"
  | .«in» => "In"
  | .inc => "Inc"
  | .lt => "Lt"
  | .lte => "Lte"
  | .ne => "Ne"
  | .near => "Near"
  | .nearSphere => "NearSphere"
  | .nin => "Nin"
  | .nor => "Nor"
  | .«not» => "Not"
  | .«or» => "Or"
  | .regex => "Regex"
  | .«set» => "Set"
  | .setOnInsert => "SetOnInsert"
  | .size => "Size"
  | .text => "Text"
  | .«type» => "Type"
  | .unset => "Unset"
  | .«match» => "Match"
  | .project => "Project"
  | .include => "Include"
  | .exclude => "Exclude"
  | .group => "Group"
  | .sum => "Sum"
  | .avg => "Avg"
  | .first => "First"
  | .last => "Last"
  | .top => "Top"
  | .topN => "TopN"
  | .bottom => "Bottom"
  | .bottomN => "BottomN"
  | .max => "Max"
  | .min => "Min"
  | .push => "Push"
  | .pull => "Pull"
  | .pullAll => "PullAll"
  | .pop => "Pop"
  | .addToSet => "AddToSet"
  | .sort => "Sort"
  | .ascending => "Ascending"
  | .descending => "Descending"
  | .addFields => "AddFields"
  | .unwind => "Unwind"
  | .limit => "Limit"
  | .unknown => "Unknown"

/-- The role of the operator in an index. -/
def role : Operator → Role
  | .eq => .equality
  | .geoIntersects => .range
  | .geoWithin => .range
  | .geoWithinBox => .range
  | .geoWithinCenter => .range
  | .geoWithinCenterSphere => .range
  | .geoWithinPolygon => .range
  | .gt => .range
  | .gte => .range
  | .«in» => .range
  | .lt => .range
  | .lte => .range
  | .ne => .range
  | .near => .range
  | .nearSphere => .range
  | .nin => .range
  | .nor => .union
  | .«or» => .union
  | .regex => .range
  | .text => .range
  | .max => .sort
  | .min => .sort
  | .sort => .sort
  | .ascending => .sort
  | .descending => .sort
  | _ => .irrelevant

/-- The operator with a spelling, the first in `known`; `unknown` when none has it. -/
def ofSpelling (s : String) : Operator :=
  (known.find? (·.spelling == s)).getD .unknown

/-- The operator with an interchange name. -/
def ofLabel? (s : String) : Option Operator :=
  known.find? (·.label == s)

/-- The boolean combinators, whose children are filters. -/
def isCombinator : Operator → Bool
  | .«and» | .«or» | .nor | .«not» => true
  | _ => false

end Operator

end QueryScope
