/-
# Support classes

Generated code relies on five Java classes for errors: a plain error value, an
exception with a status code, and an envelope around an error body with its
details.  Their bodies are fixed; the exception's constants and its
`codeToString` are written from the table of statuses.
-/

import ResourceSchema.SupportClass.Status

namespace ResourceSchema

/-- A support class. -/
inductive SupportClass where
  | resourceError
  | parsecResourceError
  | parsecErrorBody
  | parsecErrorDetail
  | resourceException
deriving DecidableEq, Repr, Inhabited

/-- Lines, each with a line feed at its end. -/
def lines (ls : List String) : String := String.join (ls.map (· ++ "\n"))

/-- The line that declares the constant of a status. -/
def constantLine (status : Status) : String :=
  "    public final static int " ++ status.constant ++ " = " ++ toString status.code ++ ";"

/-- The line that returns the reason phrase of a status. -/
def caseLine (status : Status) : String :=
  "        case " ++ status.constant ++ ": return \"" ++ status.reason ++ "\";"

/-- The exception class for a table of statuses. -/
def exceptionBody (table : List Status) : String :=
  lines (
    ["public class ResourceException extends RuntimeException \x7b"] ++
    table.map constantLine ++
    ["",
     "    public static String codeToString(int code) \x7b",
     "        switch (code) \x7b"] ++
    table.map caseLine ++
    ["        default: return \"\" + code;",
     "        \x7d",
     "    \x7d",
     "",
     "    int code;",
     "    Object data;",
     "",
     "    public ResourceException(int code) \x7b",
     "        this(code, new ResourceError().code(code).message(codeToString(code)));",
     "    \x7d",
     "",
     "    public ResourceException(int code, Object data) \x7b",
     "        super(\"ResourceException (\" + code + \"): \" + data);",
     "        this.code = code;",
     "        this.data = data;",
     "    \x7d",
     "",
     "    public int getCode() \x7b",
     "        return code;",
     "    \x7d",
     "",
     "    public Object getData() \x7b",
     "        return data;",
     "    \x7d",
     "",
     "    public <T> T getData(Class<T> cl) \x7b",
     "        return cl.cast(data);",
     "    \x7d",
     "",
     "\x7d"])

/-- The plain error value. -/
def errorBody : String :=
  lines
    ["public class ResourceError \x7b",
     "",
     "    public int code;",
     "    public String message;",
     "",
     "    public ResourceError code(int code) \x7b",
     "        this.code = code;",
     "        return this;",
     "    \x7d",
     "",
     "    public ResourceError message(String message) \x7b",
     "        this.message = message;",
     "        return this;",
     "    \x7d",
     "",
     "    public String toString() \x7b",
     "        return \"\x7bcode: \" + code + \", message: \\\"\" + message + \"\\\"\x7d\";",
     "    \x7d",
     "",
     "\x7d"]

/-- The envelope of an error body. -/
def envelopeBody : String :=
  lines
    ["public final class ParsecResourceError implements java.io.Serializable \x7b",
     "",
     "    private ParsecErrorBody error;",
     "",
     "    public ParsecResourceError() \x7b \x7d",
     "",
     "    public ParsecErrorBody getError() \x7b return error; \x7d",
     "",
     "    public ParsecResourceError setError(ParsecErrorBody error) \x7b this.error = error; " ++
       "return this; \x7d",
     "\x7d"]

/-- The error body with its details. -/
def detailedBody : String :=
  lines
    ["import java.util.List;",
     "",
     "public final class ParsecErrorBody implements java.io.Serializable \x7b",
     "",
     "    private Integer code;",
     "    private String message;",
     "",
     "    private List<ParsecErrorDetail> detail;",
     "",
     "    public ParsecErrorBody() \x7b \x7d",
     "",
     "    public Integer getCode() \x7b return code; \x7d",
     "",
     "    public String getMessage() \x7b return message; \x7d",
     "",
     "    public List<ParsecErrorDetail> getDetail() \x7b return detail; \x7d",
     "",
     "    public ParsecErrorBody setCode(Integer code) \x7b this.code = code; return this; \x7d",
     "",
     "    public ParsecErrorBody setMessage(String message) \x7b this.message = message; " ++
       "return this; \x7d",
     "",
     "    public ParsecErrorBody setDetail(List<ParsecErrorDetail> detail) " ++
       "\x7b this.detail = detail; return this; \x7d",
     "\x7d"]

/-- A single failed validation. -/
def validationBody : String :=
  lines
    ["public final class ParsecErrorDetail implements java.io.Serializable \x7b",
     "",
     "    private String message;",
     "",
     "    private String invalidValue;",
     "",
     "    public ParsecErrorDetail() \x7b \x7d",
     "",
     "    public String getMessage() \x7b return message; \x7d",
     "",
     "    public String getInvalidValue() \x7b return invalidValue; \x7d",
     "",
     "    public ParsecErrorDetail setMessage(String message) \x7b this.message = message; " ++
       "return this; \x7d",
     "",
     "    public ParsecErrorDetail setInvalidValue(String invalidValue) " ++
       "\x7b this.invalidValue = invalidValue; return this; \x7d",
     "\x7d"]

namespace SupportClass

/-- The support classes in the order in which they are emitted. -/
def all : List SupportClass :=
  [resourceError, parsecResourceError, parsecErrorBody, parsecErrorDetail, resourceException]

/-- The list of support classes has all of them. -/
theorem mem_all (c : SupportClass) : c ∈ all := by cases c <;> decide

/-- The name of the class. -/
def className : SupportClass → String
  | resourceError => "ResourceError"
  | parsecResourceError => "ParsecResourceError"
  | parsecErrorBody => "ParsecErrorBody"
  | parsecErrorDetail => "ParsecErrorDetail"
  | resourceException => "ResourceException"

/-- The class of that name. -/
def ofName? (name : String) : Option SupportClass := all.find? (·.className = name)

/-- The name of its file. -/
def fileName (c : SupportClass) : String := c.className ++ ".java"

/-- The other support classes that the class refers to by name. -/
def references : SupportClass → List SupportClass
  | parsecResourceError => [parsecErrorBody]
  | parsecErrorBody => [parsecErrorDetail]
  | resourceException => [resourceError]
  | resourceError | parsecErrorDetail => []

/-- The class without header, package and imports. -/
def body : SupportClass → String
  | resourceError => errorBody
  | parsecResourceError => envelopeBody
  | parsecErrorBody => detailedBody
  | parsecErrorDetail => validationBody
  | resourceException => exceptionBody statuses

end SupportClass

end ResourceSchema
