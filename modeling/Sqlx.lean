import Sqlx.Postgres.Protocol
import Sqlx.Postgres.Cursor
import Sqlx.Postgres.Future
import Sqlx.Postgres.FutureSafety
import Sqlx.Postgres.Delivery
import Sqlx.Postgres.Cancel
import Sqlx.Postgres.Types.Record
import Sqlx.Postgres.Types.RecordBinary
import Sqlx.Postgres.Types.RecordText
import Sqlx.MySql.Row
import Sqlx.Sqlite.Types
import Sqlx.Macros.Derives
