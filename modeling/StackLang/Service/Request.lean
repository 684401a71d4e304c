import StackLang.Text.Blank
import StackLang.Text.Fields

/-!
# Requests

A request has a method, a target, and possibly a body with a content type. The target is a path,
taken as it is written, and possibly a query, which does not matter. A body is a JSON document when
its content type says so, and one text otherwise.

## Main definitions

* `Service.Request`: a request
* `Service.Request.path`: the target without its query
* `Service.isJsonType`: the content types of JSON documents
-/

namespace StackLang

namespace Service

/-- A request. -/
structure Request where
  method : String
  target : String
  contentType : Option String
  body : Option String
  deriving DecidableEq, Repr

/-- The path of a request: its target up to the query. -/
def Request.path (r : Request) : String := String.ofList (r.target.toList.takeWhile (· ≠ '?'))

/-- Whether a media type is that of a JSON document: `application/json`, or `application` with a
name that ends in `+json`. -/
def isJsonMedia (cs : List Char) : Bool :=
  match Text.fields '/' cs with
  | [main, sub] =>
    main = "application".toList && (sub = "json".toList || "+json".toList.isSuffixOf sub)
  | _ => false

/-- Whether a content type is that of a JSON document, whatever its parameters and its case. -/
def isJsonType (contentType : String) : Bool :=
  let media := contentType.toList.takeWhile (· ≠ ';')
  isJsonMedia ((Text.trim Text.isBlank media).map Char.toLower)

end Service

end StackLang
