/-
# HTTP statuses

The statuses that have a constant of their own, in ascending order of their
codes.  `statusName` and the generated class both read this table.
-/

namespace ResourceSchema

/-- A status with its constant and reason phrase. -/
structure Status where
  code : Nat
  constant : String
  reason : String
deriving DecidableEq, Repr

/-- The statuses with constants. -/
def statuses : List Status :=
  [⟨200, "OK", "OK"⟩,
   ⟨201, "CREATED", "Created"⟩,
   ⟨202, "ACCEPTED", "Accepted"⟩,
   ⟨204, "NO_CONTENT", "No Content"⟩,
   ⟨301, "MOVED_PERMANENTLY", "Moved Permanently"⟩,
   ⟨302, "FOUND", "Found"⟩,
   ⟨303, "SEE_OTHER", "See Other"⟩,
   ⟨304, "NOT_MODIFIED", "Not Modified"⟩,
   ⟨307, "TEMPORARY_REDIRECT", "Temporary Redirect"⟩,
   ⟨400, "BAD_REQUEST", "Bad Request"⟩,
   ⟨401, "UNAUTHORIZED", "Unauthorized"⟩,
   ⟨403, "FORBIDDEN", "Forbidden"⟩,
   ⟨404, "NOT_FOUND", "Not Found"⟩,
   ⟨409, "CONFLICT", "Conflict"⟩,
   ⟨410, "GONE", "Gone"⟩,
   ⟨412, "PRECONDITION_FAILED", "Precondition Failed"⟩,
   ⟨413, "REQUEST_ENTITY_TOO_LARGE", "Request Entity Too Large"⟩,
   ⟨415, "UNSUPPORTED_MEDIA_TYPE", "Unsupported Media Type"⟩,
   ⟨421, "MISDIRECTED_REQUEST", "Misdirected Request"⟩,
   ⟨428, "PRECONDITION_REQUIRED", "Precondition Required"⟩,
   ⟨429, "TOO_MANY_REQUESTS", "Too Many Requests"⟩,
   ⟨500, "INTERNAL_SERVER_ERROR", "Internal Server Error"⟩,
   ⟨501, "NOT_IMPLEMENTED", "Not Implemented"⟩,
   ⟨503, "SERVICE_UNAVAILABLE", "Service Unavailable"⟩]

/-- The status with this code. -/
def findStatus? (code : Nat) : Option Status := statuses.find? (·.code = code)

/-- The reason phrase of a code, or the code itself if it has no constant. -/
def statusName (code : Nat) : String :=
  match findStatus? code with
  | some status => status.reason
  | none => toString code

end ResourceSchema
