/-!
# Telling names in Python files

The names of decorators, base classes, methods and modules that tell what a class, a function or a
call is for.
-/

namespace Cartograph.Python.Signals

/-! ## Decorators -/

/-- Methods of a request. -/
def requestMethods : List String :=
  ["get", "post", "put", "patch", "delete", "head", "options"]

/-- The method of an endpoint that names none. -/
def usualMethod : String :=
  "GET"

/-- Decorators of endpoints. -/
def endpointDecorators : List String :=
  ["route", "get", "post", "put", "patch", "delete", "head", "options", "api_view", "action",
    "websocket"]

/-- Decorators of tasks that run in the background. -/
def taskDecorators : List String :=
  ["task", "shared_task", "periodic_task", "job", "background_task"]

/-! ## Classes -/

/-- Classes that are routers, and their base classes. -/
def routers : List String :=
  ["APIRouter", "Blueprint", "Router", "Namespace", "DefaultRouter", "SimpleRouter"]

/-- Base classes of data models. -/
def modelBases : List String :=
  ["Model", "models.Model", "db.Model", "Base", "Document", "EmbeddedDocument", "ModelBase"]

/-- Base classes that say nothing. -/
def ignoredBases : List String :=
  ["object", "type", "ABC", "Exception"]

/-! ## Calls -/

/-- Methods that read from a database. -/
def databaseReads : List String :=
  ["filter", "get", "all", "first", "last", "count", "exists", "aggregate", "values", "values_list",
    "select_related", "prefetch_related", "annotate", "order_by", "distinct", "exclude", "find",
    "find_one", "find_many", "query", "execute", "fetchone", "fetchall", "fetchmany", "select",
    "where"]

/-- Methods that write to a database. -/
def databaseWrites : List String :=
  ["save", "create", "update", "delete", "bulk_create", "bulk_update", "insert", "insert_one",
    "insert_many", "update_one", "update_many", "delete_one", "delete_many", "commit", "add",
    "merge", "flush", "put_item", "delete_item"]

/-- Functions of request libraries that send a request. -/
def requestFunctions : List String :=
  ["get", "post", "put", "patch", "delete", "head", "options", "request", "fetch", "urlopen"]

/-- Request libraries. -/
def requestModules : List String :=
  ["requests", "httpx", "aiohttp", "urllib"]

/-- Functions that send a request whatever module they are from. -/
def fetchFunctions : List String :=
  ["fetch", "urlopen"]

end Cartograph.Python.Signals
