import Headlines.Store.Db

/-! # `PgAccountRepo` -/

namespace Headlines.Store

open Core

def AccountRow.intoDomain (id : Uuid) (row : AccountRow) : Account where
  id := id
  shortName := row.shortName
  authorName := row.authorName
  authorUrl := row.authorUrl.getD ""
  status := row.status
  deletedAt := row.deletedAt
  createdAt := row.createdAt
  updatedAt := row.updatedAt

namespace PgAccountRepo

def get (id : Uuid) : Db Account := do
  Db.get
  let row ← Db.optional (.account id) "select account"
  let row ← ReadCommitted.Throwing.okOr row (.accountNotFound id)
  return row.intoDomain id

end PgAccountRepo

end Headlines.Store
