/-!
# Keywords

The vocabulary of the language. Every table holds words in upper case, and every question is asked
of a word in upper case.
-/

namespace SqlLayout

/-- The role of a known word. -/
inductive KeywordClass where
  /-- A word that is an operator. -/
  | operator
  /-- A built-in function, which keeps its case when laid out. -/
  | function
  | dataType
  /-- Any other reserved or contextual keyword. -/
  | other
deriving DecidableEq, Repr, Inhabited

namespace Keyword

def operators : List String := [
  "ALL", "ANY", "EXISTS", "IN", "IS", "LIKE", "NOT", "SOME"]

def dataTypes : List String := [
  "BIGINT", "BINARY", "BIT", "CHAR", "CHARACTER", "CURSOR", "DATE", "DATETIME", "DATETIME2",
  "DATETIMEOFFSET", "DEC", "DECIMAL", "FLOAT", "GEOGRAPHY", "GEOMETRY", "HIERARCHYID", "IMAGE",
  "INT", "INTEGER", "MONEY", "NATIONAL", "NCHAR", "NTEXT", "NUMERIC", "NVARCHAR", "PRECISION",
  "REAL", "SMALLDATETIME", "SMALLINT", "SMALLMONEY", "SQL_VARIANT", "SYSNAME", "TEXT", "TIME",
  "TIMESTAMP", "TINYINT", "UNIQUEIDENTIFIER", "VARBINARY", "VARCHAR", "VARYING", "XML"]

/-- Built-in functions and system variables. -/
def functions : List String := [
  "@@CONNECTIONS", "@@CPU_BUSY", "@@CURSOR_ROWS", "@@DATEFIRST", "@@DBTS", "@@ERROR",
  "@@FETCH_STATUS", "@@IDENTITY", "@@IDLE", "@@IO_BUSY", "@@LANGID", "@@LANGUAGE",
  "@@LOCK_TIMEOUT", "@@MAX_CONNECTIONS", "@@MAX_PRECISION", "@@NESTLEVEL", "@@OPTIONS",
  "@@PACKET_ERRORS", "@@PROCID", "@@REMSERVER", "@@ROWCOUNT", "@@SERVERNAME", "@@SERVICENAME",
  "@@SPID", "@@TEXTSIZE", "@@TRANCOUNT", "@@VERSION", "ABS", "ACOS", "APP_NAME", "ASCII", "ASIN",
  "ATAN", "ATN2", "AVG", "CAST", "CEILING", "CHARINDEX", "CHECKSUM", "CHECKSUM_AGG", "COALESCE",
  "COL_LENGTH", "COL_NAME", "CONCAT", "CONVERT", "COS", "COT", "COUNT", "COUNT_BIG", "CUME_DIST",
  "CURRENT_TIMESTAMP", "CURRENT_USER", "DATABASEPROPERTYEX", "DATALENGTH", "DATEADD", "DATEDIFF",
  "DATENAME", "DATEPART", "DAY", "DB_ID", "DB_NAME", "DEGREES", "DENSE_RANK", "DIFFERENCE",
  "ERROR_LINE", "ERROR_MESSAGE", "ERROR_NUMBER", "ERROR_PROCEDURE", "ERROR_SEVERITY",
  "ERROR_STATE", "EXP", "FIRST_VALUE", "FLOOR", "FORMAT", "GETDATE", "GETUTCDATE", "GROUPING",
  "HOST_ID", "HOST_NAME", "IDENT_CURRENT", "IIF", "ISDATE", "ISNULL", "ISNUMERIC", "LAG",
  "LAST_VALUE", "LEAD", "LEFT", "LEN", "LOG", "LOG10", "LOWER", "LTRIM", "MAX", "MIN", "MONTH",
  "NEWID", "NTILE", "NULLIF", "OBJECT_ID", "OBJECT_NAME", "OBJECTPROPERTY", "PATINDEX",
  "PERCENT_RANK", "PI", "POWER", "QUOTENAME", "RADIANS", "RAND", "RANK", "REPLACE", "REPLICATE",
  "REVERSE", "RIGHT", "ROUND", "ROW_NUMBER", "RTRIM", "SCOPE_IDENTITY", "SERVERPROPERTY",
  "SESSION_USER", "SIGN", "SIN", "SOUNDEX", "SPACE", "SQRT", "SQUARE", "STDEV", "STDEVP", "STR",
  "STRING_AGG", "STUFF", "SUBSTRING", "SUM", "SUSER_NAME", "SUSER_SNAME", "SYSDATETIME",
  "SYSTEM_USER", "TAN", "TRIM", "TRY_CAST", "TRY_CONVERT", "UNICODE", "UPPER", "USER_ID",
  "USER_NAME", "VAR", "VARP", "YEAR"]

/-- Reserved and contextual keywords of no other class. -/
def others : List String := [
  "ACTION", "ADD", "AFTER", "ALTER", "AND", "APPLY", "AS", "ASC", "AUTHORIZATION", "BACKUP",
  "BEGIN", "BETWEEN", "BREAK", "BROWSE", "BULK", "BY", "CALLER", "CASCADE", "CASE", "CATCH",
  "CHECK", "CHECKPOINT", "CLOSE", "CLUSTERED", "COLLATE", "COLUMN", "COMMIT", "COMPUTE",
  "CONSTRAINT", "CONTAINS", "CONTAINSTABLE", "CONTINUE", "CREATE", "CROSS", "CURRENT",
  "CURRENT_DATE", "CURRENT_TIME", "DATABASE", "DBCC", "DEALLOCATE", "DECLARE", "DEFAULT",
  "DELETE", "DENY", "DESC", "DISK", "DISTINCT", "DISTRIBUTED", "DROP", "DUMP", "ELSE",
  "ENCRYPTION", "END", "ERRLVL", "ESCAPE", "EXCEPT", "EXEC", "EXECUTE", "EXIT", "EXTERNAL",
  "FAST_FORWARD", "FETCH", "FILE", "FILLFACTOR", "FIRST", "FOR", "FOREIGN", "FORWARD_ONLY",
  "FREETEXT", "FREETEXTTABLE", "FROM", "FULL", "FUNCTION", "GLOBAL", "GO", "GOTO", "GRANT",
  "GROUP", "HASH", "HAVING", "HOLDLOCK", "IDENTITY", "IDENTITY_INSERT", "IDENTITYCOL", "IF",
  "INDEX", "INNER", "INSENSITIVE", "INSERT", "INSTEAD", "INTERSECT", "INTO", "JOIN", "KEY",
  "KEYSET", "KILL", "LAST", "LINENO", "LOCAL", "LOOP", "MATCHED", "MAXRECURSION", "MERGE", "NEXT",
  "NOCHECK", "NOCOUNT", "NOLOCK", "NONCLUSTERED", "NULL", "OF", "OFF", "OFFSET", "OFFSETS", "ON",
  "ONLY", "OPEN", "OPENDATASOURCE", "OPENQUERY", "OPENROWSET", "OPENXML", "OPTIMISTIC", "OPTION",
  "OR", "ORDER", "OUT", "OUTER", "OUTPUT", "OVER", "OWNER", "PARTITION", "PERCENT", "PIVOT",
  "PLAN", "PRIMARY", "PRINT", "PRIOR", "PROC", "PROCEDURE", "PUBLIC", "RAISERROR", "READ",
  "READ_ONLY", "READONLY", "READTEXT", "RECOMPILE", "RECONFIGURE", "REFERENCES", "RELATIVE",
  "REMOTE", "REPLICATION", "RESTORE", "RESTRICT", "RETURN", "RETURNS", "REVERT", "REVOKE",
  "ROLLBACK", "ROWCOUNT", "ROWGUIDCOL", "ROWS", "RULE", "SAVE", "SCHEMA", "SCHEMABINDING",
  "SCROLL", "SCROLL_LOCKS", "SELECT", "SELF", "SET", "SETUSER", "SHUTDOWN", "SOURCE", "STATIC",
  "STATISTICS", "TABLE", "TARGET", "TEXTSIZE", "THEN", "THROW", "TIES", "TO", "TOP", "TRAN",
  "TRANSACTION", "TRIGGER", "TRUNCATE", "TRY", "TSEQUAL", "TYPE_WARNING", "UNION", "UNIQUE",
  "UNPIVOT", "UPDATE", "UPDATETEXT", "USE", "USER", "USING", "VALUES", "VIEW", "WAITFOR", "WHEN",
  "WHERE", "WHILE", "WITH", "WORK", "WRITETEXT", "XACT_ABORT"]

/-- Keywords that begin a new statement. -/
def statementStarters : List String := [
  "ALTER", "BACKUP", "BREAK", "CHECKPOINT", "CLOSE", "COMMIT", "CONTINUE", "CREATE", "DBCC",
  "DEALLOCATE", "DECLARE", "DELETE", "DENY", "DROP", "EXEC", "EXECUTE", "FETCH", "GOTO", "GRANT",
  "IF", "INSERT", "KILL", "MERGE", "OPEN", "PRINT", "RAISERROR", "RECONFIGURE", "RESTORE",
  "RETURN", "REVERT", "REVOKE", "SELECT", "SET", "SETUSER", "SHUTDOWN", "THROW", "TRUNCATE",
  "UPDATE", "USE", "WAITFOR", "WHILE", "WITH"]

/-- Keywords that begin a new clause within a statement. -/
def clauseStarters : List String := [
  "COMPUTE", "HAVING", "INTO", "OPTION", "OUTPUT", "VALUES", "WHERE"]

def class? (word : String) : Option KeywordClass :=
  if operators.contains word then some .operator
  else if dataTypes.contains word then some .dataType
  else if functions.contains word then some .function
  else if others.contains word then some .other
  else none

def isDataType (word : String) : Bool :=
  class? word == some .dataType

def endsInDataType (text : String) : Bool :=
  isDataType (String.ofList (text.toList.reverse.takeWhile (· != ' ')).reverse)

def isStatementStarter (word : String) : Bool :=
  statementStarters.contains word

def isClauseStarter (word : String) : Bool :=
  clauseStarters.contains word

/-- Keywords of several words, longer ones before their own beginnings. -/
def compounds : List (List String) := [
  ["NATIONAL", "CHARACTER", "VARYING"], ["NATIONAL", "CHAR", "VARYING"],
  ["BEGIN", "DISTRIBUTED", "TRANSACTION"], ["BEGIN", "DISTRIBUTED", "TRAN"],
  ["NATIONAL", "CHARACTER"], ["NATIONAL", "CHAR"], ["NATIONAL", "TEXT"], ["CHARACTER", "VARYING"],
  ["CHAR", "VARYING"], ["BINARY", "VARYING"], ["DOUBLE", "PRECISION"], ["UNION", "ALL"],
  ["ORDER", "BY"], ["GROUP", "BY"], ["PARTITION", "BY"], ["INSERT", "INTO"],
  ["BEGIN", "TRANSACTION"], ["BEGIN", "TRAN"], ["COMMIT", "TRANSACTION"], ["COMMIT", "TRAN"],
  ["COMMIT", "WORK"], ["ROLLBACK", "TRANSACTION"], ["ROLLBACK", "TRAN"], ["ROLLBACK", "WORK"],
  ["SAVE", "TRANSACTION"], ["SAVE", "TRAN"], ["BEGIN", "TRY"], ["BEGIN", "CATCH"], ["END", "TRY"],
  ["END", "CATCH"], ["EXECUTE", "AS"], ["EXEC", "AS"]]

/-- Preferred spellings, for keywords that have one. -/
def preferredSpellings : List (String × String) := [
  ("PROC", "PROCEDURE"), ("LEFT OUTER JOIN", "LEFT JOIN"), ("RIGHT OUTER JOIN", "RIGHT JOIN"),
  ("FULL OUTER JOIN", "FULL JOIN"), ("JOIN", "INNER JOIN"), ("TRAN", "TRANSACTION"),
  ("BEGIN TRAN", "BEGIN TRANSACTION"),
  ("BEGIN DISTRIBUTED TRAN", "BEGIN DISTRIBUTED TRANSACTION"),
  ("COMMIT TRAN", "COMMIT TRANSACTION"), ("ROLLBACK TRAN", "ROLLBACK TRANSACTION"),
  ("SAVE TRAN", "SAVE TRANSACTION"), ("BINARY VARYING", "VARBINARY"),
  ("CHARACTER VARYING", "VARCHAR"), ("CHARACTER", "CHAR"), ("CHAR VARYING", "VARCHAR"),
  ("DEC", "DECIMAL"), ("DOUBLE PRECISION", "FLOAT"), ("INTEGER", "INT"),
  ("NATIONAL CHARACTER", "NCHAR"), ("NATIONAL CHAR", "NCHAR"),
  ("NATIONAL CHARACTER VARYING", "NVARCHAR"), ("NATIONAL CHAR VARYING", "NVARCHAR"),
  ("NATIONAL TEXT", "NTEXT"), ("OUT", "OUTPUT"), ("EXEC", "EXECUTE")]

def preferred? (keyword : String) : Option String :=
  preferredSpellings.lookup keyword

end Keyword

end SqlLayout
