import MyLibevent.DatabaseMysql

/-!
# Connection strings with empty fields

`StrSplit` drops empty tokens, so that the fields behind an empty one move forward.
-/

namespace MyLibevent.Proofs

open List

lemma strSplitLoop_eq (c : UInt8) (r : List Bytes) (s src : Bytes) :
    strSplitLoop [c] r s src = r ++ ((src.splitOn c).modifyHead (s ++ ·)).filter (· ≠ []) := by
  induction src generalizing r s with
  | nil => cases s <;> simp [strSplitLoop]
  | cons a src ih =>
    rw [strSplitLoop, splitOn_cons_eq_if_modifyHead]
    by_cases ha : a = c
    · have hid : modifyHead (fun l : Bytes => l) (src.splitOn c) = src.splitOn c :=
        congrFun modifyHead_id _
      cases s <;> simp [ha, ih, hid]
    · simp [ha, ih, Function.comp_def]

lemma strSplit_intercalate {c : UInt8} {fields : List Bytes} (hne : fields ≠ [])
    (h : ∀ field ∈ fields, c ∉ field) :
    strSplit ([c].intercalate fields) [c] = fields.filter (· ≠ []) := by
  cases fields with
  | nil => exact absurd rfl hne
  | cons field fields =>
    rw [strSplit, strSplitLoop_eq, splitOn_intercalate c h hne]
    rfl

/-- The fields in the order of the connection string. -/
def infoFields (db : DatabaseMysql) : List Bytes :=
  [db.host, db.portOrSocket, db.user, db.password, db.database]

/-- Fields joined with `;` are read into their own members if and only if no empty field stands before
one that is not empty, and the member of each empty field was empty before. -/
theorem databaseInitialize_iff (db fields : DatabaseMysql)
    (h : ∀ field ∈ infoFields fields, byte ';' ∉ field) :
    databaseInitialize db ([byte ';'].intercalate (infoFields fields)) = fields ↔
      (infoFields fields).Pairwise (fun field later => field = [] → later = []) ∧
        Forall₂ (fun field old => field = [] → old = []) (infoFields fields) (infoFields db) := by
  have htokens : strSplit ([byte ';'].intercalate (infoFields fields)) (bytes ";") = _ :=
    strSplit_intercalate (by simp [infoFields]) h
  rw [databaseInitialize, htokens]
  obtain ⟨host, port, user, password, database⟩ := fields
  -- each field is empty or not
  cases host <;> cases port <;> cases user <;> cases password <;> cases database <;>
    simp [infoFields]

theorem databaseInitialize_iff_no_database : databaseInitialize ⟨[], [], [], [], []⟩
    (bytes "db1;3306;root;secret;") = ⟨bytes "db1", bytes "3306", bytes "root", bytes "secret", []⟩ :=
  (databaseInitialize_iff ⟨[], [], [], [], []⟩
    ⟨bytes "db1", bytes "3306", bytes "root", bytes "secret", []⟩ (by decide)).2 (by decide)

/-- With an empty password the name of the database is used as the password. -/
theorem databaseInitialize_empty_password :
    databaseInitialize ⟨[], [], [], [], []⟩ ([byte ';'].intercalate
        (infoFields ⟨bytes "db1", bytes "3306", bytes "root", [], bytes "game"⟩)) =
      ⟨bytes "db1", bytes "3306", bytes "root", bytes "game", []⟩ := by
  decide

end MyLibevent.Proofs
