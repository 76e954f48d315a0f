import MyLibevent.Lines

/-!
# Connection strings

`StrSplit` of the server's `base.cpp` and the part of `DatabaseMysql::Initialize` that reads the
connection string, up to its call of `Connect`. A string is the list of its bytes.
-/

namespace MyLibevent

def strSplitLoop (sep : Bytes) (r : List Bytes) (s : Bytes) : Bytes → List Bytes
  | [] => if s.length ≠ 0 then r ++ [s] else r
  | c :: src =>
    if sep.contains c then strSplitLoop sep (if s.length ≠ 0 then r ++ [s] else r) [] src
    else strSplitLoop sep r (s ++ [c]) src

def strSplit (src sep : Bytes) : List Bytes := strSplitLoop sep [] [] src

/-- The fields that `Initialize` reads from the connection string. -/
structure DatabaseMysql where
  host : Bytes
  portOrSocket : Bytes
  user : Bytes
  password : Bytes
  database : Bytes
  deriving DecidableEq

/-- The members in the order of the connection string. A member for which there is no token keeps
its value. -/
def databaseInitialize (db : DatabaseMysql) (infoString : Bytes) : DatabaseMysql :=
  let tokens := strSplit infoString (bytes ";")
  { host := tokens.getD 0 db.host
    portOrSocket := tokens.getD 1 db.portOrSocket
    user := tokens.getD 2 db.user
    password := tokens.getD 3 db.password
    database := tokens.getD 4 db.database }

end MyLibevent
