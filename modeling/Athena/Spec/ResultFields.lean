import Athena.ForStd.Run
import Athena.Native.SqlResultSet

/-!
# Fields of a result set

What the table holds after `setResult`, and which bytes a getter reads.  The lengths that
the client library reports, the sizes of the buffers and the sizes that the getters read are
never compared, so that each of them has to fit by itself.
-/

namespace Athena

namespace StmtResult

/-- The value of a column in a row; there is none where it is NULL. -/
def cell (stmt : StmtResult) (row col : Nat) : Option (List UInt8) :=
  (stmt.rows[row]?.bind fun cells => cells[col]?).join

/-- The size of the buffer of a column. -/
def bufferLength (stmt : StmtResult) (col : Nat) : Nat :=
  (stmt.fields[col]?.bind (ResultBind.bufferSize stmt.timeSize)).getD 0

/-- The number of fields in the table. -/
def tableSize (stmt : StmtResult) : Nat :=
  if stmt.bindFails then 0 else stmt.rowCount % 2 ^ 32 * stmt.fields.length % 2 ^ 32

/-- All rows have their place in the table, and every length is that of bytes in its buffer. -/
def Fits (stmt : StmtResult) : Prop :=
  stmt.bindFails = false →
    stmt.rows.length * stmt.fields.length ≤ stmt.tableSize ∧
      ∀ row col value, stmt.cell row col = some value →
        0 ≤ Block.intLength value.length ∧
          Block.intLength value.length ≤ stmt.bufferLength col

end StmtResult

/-! ## One field -/

/-- What a field holds after the copy from a buffer of `size` bytes. -/
def SqlField.ofCell (size : Nat) : Option (List UInt8) → Option SqlField
  | none => some { buff := some [], len := 0 }
  | some value =>
    let len := Block.intLength value.length
    if 0 ≤ len ∧ len ≤ size then some { buff := some (value.take len.toNat), len := len } else none

/-- NULL is copied as an empty field. -/
theorem SqlField.ofCell_none (size : Nat) :
    SqlField.ofCell size none = some { buff := some [], len := 0 } := rfl

/-- A value is copied if its length is that of bytes in the buffer. -/
theorem SqlField.ofCell_some {size : Nat} {value : List UInt8} {field : SqlField}
    (h : SqlField.ofCell size (some value) = some field) :
    0 ≤ Block.intLength value.length ∧ Block.intLength value.length ≤ size ∧
      field = { buff := some (value.take (Block.intLength value.length).toNat),
                len := Block.intLength value.length } := by
  simp only [ofCell] at h
  split at h
  · next hfits => exact ⟨hfits.1, hfits.2, (Option.some.inj h).symm⟩
  · exact nomatch h

/-- A copied field is not empty for `isEmpty`. -/
theorem SqlField.ofCell_isEmpty {size : Nat} {value : Option (List UInt8)} {field : SqlField}
    (h : SqlField.ofCell size value = some field) : field.isEmpty = false := by
  cases value with
  | none =>
    rw [ofCell_none, Option.some.injEq] at h
    rw [← h]
    rfl
  | some value =>
    obtain ⟨-, -, rfl⟩ := ofCell_some h
    rfl

/-- A copy out of a buffer that begins with what was written of `value`. -/
theorem SqlField.make_written {value rest : List UInt8} {size : Nat} {len : Int}
    (hle : len ≤ value.length) (hsize : (value.take size ++ rest).length = size) :
    SqlField.make (value.take size ++ rest) len =
      if 0 ≤ len ∧ len ≤ size then some { buff := some (value.take len.toNat), len := len }
      else none := by
  rw [make, Block.read, hsize]
  by_cases hneg : len < 0
  · rw [if_pos hneg, if_neg (by omega)]
  · rw [if_neg hneg]
    by_cases hfits : len.toNat ≤ size
    · have htake : len.toNat ≤ (value.take size).length := by
        rw [List.length_take]
        omega
      rw [if_pos hfits, if_pos (by omega), List.take_append_of_le_length htake, List.take_take,
        Nat.min_eq_left hfits]
      rfl
    · rw [if_neg hfits, if_neg (by omega)]
      rfl

namespace ResultBind

/-- The buffer has the size that `buffer_length` says. -/
def Sized (bind : ResultBind) : Prop := bind.buffer.length = bind.bufferLength

/-- An allocated buffer is as long as it says. -/
theorem allocate_sized (timeSize : Nat) (field : MysqlField) :
    (allocateResultBuffer timeSize field).Sized := by
  simp only [allocateResultBuffer, Sized]
  split
  · exact List.length_replicate
  · rfl

/-- Its size is that of its column's type. -/
theorem bufferLength_allocate (timeSize : Nat) (field : MysqlField) :
    (allocateResultBuffer timeSize field).bufferLength = (bufferSize timeSize field).getD 0 := by
  rw [allocateResultBuffer]
  split
  · next size hsize => rw [hsize]; rfl
  · next hsize => rw [hsize]; rfl

/-- A fetch does not change the size of a buffer, -/
@[simp] theorem bufferLength_fetch (bind : ResultBind) (cell : Option (List UInt8)) :
    (bind.fetch cell).bufferLength = bind.bufferLength := by
  cases cell <;> rfl

/-- and the buffer stays as long as it says. -/
theorem Sized.fetch {bind : ResultBind} (h : bind.Sized) (cell : Option (List UInt8)) :
    (bind.fetch cell).Sized := by
  cases cell with
  | none => exact h
  | some value =>
    simp only [Sized, ResultBind.fetch, List.length_append, List.length_drop] at h ⊢
    have : (value.take bind.bufferLength).length ≤ bind.bufferLength := List.length_take_le _ _
    omega

/-- The copy depends on nothing that an earlier row has left in the buffer. -/
theorem Sized.makeField_fetch {bind : ResultBind} (h : bind.Sized) (cell : Option (List UInt8)) :
    (bind.fetch cell).makeField = SqlField.ofCell bind.bufferLength cell := by
  cases cell with
  | none =>
    have hmake : (bind.fetch none).makeField = SqlField.make [] 0 := if_pos rfl
    rw [hmake, SqlField.make, if_neg (Int.lt_irrefl 0), Int.toNat_zero, Block.read_zero]
    rfl
  | some value =>
    have hmake : (bind.fetch (some value)).makeField =
        SqlField.make (bind.fetch (some value)).buffer (Block.intLength value.length) :=
      if_neg Bool.false_ne_true
    rw [hmake]
    exact SqlField.make_written (Block.intLength_le _) (h.fetch (some value))

end ResultBind

/-! ## The table -/

namespace SqlResultSet

/-- The columns of a row go into consecutive fields, inside the table. -/
theorem copyRow_spec {table table' : List SqlField} {index : Nat} {binds : List ResultBind}
    (hsize : table.length < 2 ^ 32) (hindex : index ≤ table.length)
    (h : copyRow table index binds = some table') :
    table'.length = table.length ∧ index + binds.length ≤ table.length ∧
      (∀ (c : Nat) (bind : ResultBind), binds[c]? = some bind →
        ∃ field, bind.makeField = some field ∧ table'[index + c]? = some field) ∧
      ∀ i, i < index ∨ index + binds.length ≤ i → table'[i]? = table[i]? := by
  induction binds generalizing table index with
  | nil =>
    obtain rfl := Option.some.inj h
    exact ⟨rfl, hindex, fun c bind hc => (nomatch hc), fun i _ => rfl⟩
  | cons bind binds ih =>
    rw [copyRow] at h
    -- the column is inside the table, and its field is made
    split at h
    · next hlt =>
      have hmod : index % 2 ^ 32 = index := Nat.mod_eq_of_lt (by omega)
      rw [hmod] at h hlt
      split at h
      · exact nomatch h
      · next field hfield =>
        obtain ⟨hlength, hle, hcols, hrest⟩ :=
          ih (by rwa [List.length_set]) (by rw [List.length_set]; omega) h
        rw [List.length_set] at hlength hle
        rw [List.length_cons]
        -- the first column is written here, and the rest does not touch it
        refine ⟨hlength, by omega, fun c bind' hc => ?_, fun i hi => ?_⟩
        · cases c with
          | zero =>
            obtain rfl := Option.some.inj hc
            refine ⟨field, hfield, ?_⟩
            rw [hrest (index + 0) (by omega), Nat.add_zero, List.getElem?_set_self hlt]
          | succ c =>
            obtain ⟨field', hfield', hget⟩ := hcols c bind' hc
            exact ⟨field', hfield', by rw [← hget]; congr 1; omega⟩
        · rw [hrest i (by omega), List.getElem?_set_ne (by omega)]
    · exact nomatch h

/-- A row is copied if it has its place in the table and every field has a result. -/
theorem copyRow_isSome {table : List SqlField} {index : Nat} {binds : List ResultBind}
    (hsize : table.length < 2 ^ 32) (hle : index + binds.length ≤ table.length)
    (hmake : ∀ bind ∈ binds, bind.makeField.isSome) : (copyRow table index binds).isSome := by
  induction binds generalizing table index with
  | nil => rfl
  | cons bind binds ih =>
    rw [List.length_cons] at hle
    obtain ⟨field, hfield⟩ := Option.isSome_iff_exists.mp (hmake bind List.mem_cons_self)
    -- the index stays within the table, so the copy does not end before the row
    have hmod : index % 2 ^ 32 = index := Nat.mod_eq_of_lt (by omega)
    rw [copyRow, if_pos (by rw [hmod]; omega), hfield]
    exact ih (by rwa [List.length_set]) (by rw [List.length_set]; omega)
      fun bind' hmem => hmake bind' (List.mem_cons_of_mem bind hmem)

/-- The buffers of a statement, before the first row and between two rows. -/
structure Bound (binds : List ResultBind) (sizes : List Nat) : Prop where
  sizes_eq : binds.map ResultBind.bufferLength = sizes
  sized : ∀ bind ∈ binds, bind.Sized

/-- There is a buffer for each column. -/
theorem Bound.length_eq {binds : List ResultBind} {sizes : List Nat} (h : Bound binds sizes) :
    binds.length = sizes.length := by
  rw [← h.sizes_eq, List.length_map]

/-- A fetch keeps the buffers. -/
theorem Bound.fetch {binds : List ResultBind} {sizes : List Nat} (h : Bound binds sizes)
    {row : List (Option (List UInt8))} (hrow : row.length = sizes.length) :
    Bound (binds.zipWith ResultBind.fetch row) sizes := by
  -- by induction on the columns
  induction binds generalizing sizes row with
  | nil => exact h
  | cons bind binds ih =>
    obtain ⟨rfl, hsized⟩ := h
    cases row with
    | nil => exact nomatch hrow
    | cons cell row =>
      have htail : Bound binds (binds.map ResultBind.bufferLength) :=
        ⟨rfl, fun bind' hmem => hsized bind' (List.mem_cons_of_mem bind hmem)⟩
      have hnext := @ih _ htail row (Nat.succ.inj hrow)
      refine ⟨?_, ?_⟩
      · rw [List.zipWith_cons_cons, List.map_cons, hnext.sizes_eq, ResultBind.bufferLength_fetch]
        rfl
      · intro bind' hmem
        cases hmem with
        | head => exact (hsized bind List.mem_cons_self).fetch cell
        | tail _ hmem => exact hnext.sized bind' hmem

/-- The copy of a column, by its buffer and its cell. -/
theorem Bound.makeField_fetch {binds : List ResultBind} {sizes : List Nat} (h : Bound binds sizes)
    {row : List (Option (List UInt8))} {c size : Nat} {cell : Option (List UInt8)}
    (hsize : sizes[c]? = some size) (hcell : row[c]? = some cell) :
    ∃ bind, (binds.zipWith ResultBind.fetch row)[c]? = some bind ∧
      bind.makeField = SqlField.ofCell size cell := by
  rw [← h.sizes_eq, List.getElem?_map] at hsize
  obtain ⟨bind, hbind, rfl⟩ := Option.map_eq_some_iff.mp hsize
  refine ⟨bind.fetch cell, ?_, (h.sized bind (List.mem_of_getElem? hbind)).makeField_fetch cell⟩
  rw [List.getElem?_zipWith, hbind, hcell]

/-- The rows go into the table one after the other. -/
theorem copyRows_spec {table table' : List SqlField} {binds : List ResultBind} {sizes : List Nat}
    {rowIndex : Nat} {rows : List (List (Option (List UInt8)))} (hbound : Bound binds sizes)
    (hsize : table.length < 2 ^ 32) (hindex : rowIndex * sizes.length ≤ table.length)
    (hrows : ∀ row ∈ rows, row.length = sizes.length)
    (h : copyRows table binds rowIndex rows = some table') :
    table'.length = table.length ∧ (rowIndex + rows.length) * sizes.length ≤ table.length ∧
      (∀ r row c size cell, rows[r]? = some row → sizes[c]? = some size → row[c]? = some cell →
        ∃ field, SqlField.ofCell size cell = some field ∧
          table'[(rowIndex + r) * sizes.length + c]? = some field) ∧
      ∀ i, i < rowIndex * sizes.length ∨ (rowIndex + rows.length) * sizes.length ≤ i →
        table'[i]? = table[i]? := by
  induction rows generalizing table binds rowIndex with
  | nil =>
    obtain rfl := Option.some.inj h
    exact ⟨rfl, hindex, fun r row c size cell hr => (nomatch hr), fun i _ => rfl⟩
  | cons row rows ih =>
    -- one row is copied behind the other, into columns that are bound as before
    have hrow := hrows row List.mem_cons_self
    have hbound' := hbound.fetch hrow
    rw [copyRows] at h
    rw [hbound'.length_eq] at h
    split at h
    · exact nomatch h
    · next table₁ hcopy =>
      obtain ⟨hlength, hle, hcols, hrest⟩ := copyRow_spec hsize hindex hcopy
      rw [hbound'.length_eq] at hle hrest
      have hnext : (rowIndex + 1) * sizes.length = rowIndex * sizes.length + sizes.length :=
        Nat.succ_mul _ _
      obtain ⟨hlength', hle', hcols', hrest'⟩ :=
        ih hbound' (by rwa [hlength]) (by rw [hlength]; omega)
          (fun row' hmem => hrows row' (List.mem_cons_of_mem row hmem)) h
      rw [hlength] at hlength' hle'
      have hcount : rowIndex + (rows.length + 1) = rowIndex + 1 + rows.length := by omega
      rw [List.length_cons, hcount]
      -- the cells of this row stay as the later rows leave them
      refine ⟨hlength', hle', fun r row' c size cell hr hc hcell => ?_, fun i hi => ?_⟩
      · have hlt : c < sizes.length := (List.getElem?_eq_some_iff.mp hc).1
        cases r with
        | zero =>
          obtain rfl := Option.some.inj hr
          obtain ⟨bind, hbind, hmake⟩ := hbound.makeField_fetch hc hcell
          obtain ⟨field, hfield, hget⟩ := hcols c bind hbind
          refine ⟨field, hmake.symm.trans hfield, ?_⟩
          rw [Nat.add_zero, hrest' _ (by omega), hget]
        | succ r =>
          obtain ⟨field, hfield, hget⟩ := hcols' r row' c size cell hr hc hcell
          refine ⟨field, hfield, ?_⟩
          rw [show rowIndex + (r + 1) = rowIndex + 1 + r by omega, hget]
      · have hmono : (rowIndex + 1) * sizes.length ≤ (rowIndex + 1 + rows.length) * sizes.length :=
          Nat.mul_le_mul_right _ (by omega)
        rw [hrest' i (by omega), hrest i (by omega)]

/-- All rows are copied if they have their place in the table and every field has a result. -/
theorem copyRows_isSome {table : List SqlField} {binds : List ResultBind} {sizes : List Nat}
    {rowIndex : Nat} {rows : List (List (Option (List UInt8)))} (hbound : Bound binds sizes)
    (hsize : table.length < 2 ^ 32)
    (hle : (rowIndex + rows.length) * sizes.length ≤ table.length)
    (hrows : ∀ row ∈ rows, row.length = sizes.length)
    (hmake : ∀ row ∈ rows, ∀ (c size : Nat) (cell : Option (List UInt8)),
      sizes[c]? = some size → row[c]? = some cell →
      (SqlField.ofCell size cell).isSome) : (copyRows table binds rowIndex rows).isSome := by
  induction rows generalizing table binds rowIndex with
  | nil => rfl
  | cons row rows ih =>
    -- the sizes of a row are those that were bound
    have hrow := hrows row List.mem_cons_self
    have hbound' := hbound.fetch hrow
    have hcount : rowIndex + (rows.length + 1) = rowIndex + 1 + rows.length := by omega
    rw [List.length_cons, hcount] at hle
    have hnext : (rowIndex + 1) * sizes.length = rowIndex * sizes.length + sizes.length :=
      Nat.succ_mul _ _
    have hmono : (rowIndex + 1) * sizes.length ≤ (rowIndex + 1 + rows.length) * sizes.length :=
      Nat.mul_le_mul_right _ (by omega)
    -- so each of its cells makes a field
    have hcopy : (copyRow table (rowIndex * sizes.length)
        (binds.zipWith ResultBind.fetch row)).isSome := by
      apply copyRow_isSome hsize
      · rw [hbound'.length_eq]
        omega
      · intro bind hmem
        obtain ⟨c, hc, rfl⟩ := List.getElem_of_mem hmem
        have hlt : c < sizes.length := by rwa [hbound'.length_eq] at hc
        obtain ⟨bind', hbind, hfield⟩ := hbound.makeField_fetch
          (List.getElem?_eq_getElem hlt) (List.getElem?_eq_getElem (l := row) (by omega))
        rw [List.getElem?_eq_getElem hc] at hbind
        rw [Option.some.inj hbind, hfield]
        exact hmake row List.mem_cons_self c _ _ (List.getElem?_eq_getElem hlt)
          (List.getElem?_eq_getElem (by omega))
    obtain ⟨table₁, htable₁⟩ := Option.isSome_iff_exists.mp hcopy
    have hlength := (copyRow_spec hsize (by omega) htable₁).1
    rw [copyRows]
    rw [hbound'.length_eq, htable₁]
    exact ih hbound' (by rwa [hlength]) (by rwa [hlength])
      (fun row' hmem => hrows row' (List.mem_cons_of_mem row hmem))
      fun row' hmem => hmake row' (List.mem_cons_of_mem row hmem)

end SqlResultSet

namespace StmtResult

/-- A table that shows the rows of a result. -/
structure Shows (stmt : StmtResult) (table : List SqlField) : Prop where
  length_eq : table.length = stmt.tableSize
  field_eq : stmt.bindFails = false → ∀ row col, row < stmt.rows.length →
    col < stmt.fields.length →
      ∃ field, SqlField.ofCell (stmt.bufferLength col) (stmt.cell row col) = some field ∧
        table[row * stmt.fields.length + col]? = some field
  new_of_le : ∀ i field, stmt.rows.length * stmt.fields.length ≤ i → table[i]? = some field →
    field = .new

/-- The sizes of the buffers. -/
def sizes (stmt : StmtResult) : List Nat :=
  stmt.fields.map fun field => (ResultBind.bufferSize stmt.timeSize field).getD 0

/-- There is a size for each column. -/
theorem length_sizes (stmt : StmtResult) : stmt.sizes.length = stmt.fields.length := by
  rw [sizes, List.length_map]

/-- It is that of the column's buffer. -/
theorem getElem?_sizes {stmt : StmtResult} {col : Nat} (h : col < stmt.fields.length) :
    stmt.sizes[col]? = some (stmt.bufferLength col) := by
  rw [sizes, List.getElem?_map, bufferLength, List.getElem?_eq_getElem h]
  rfl

/-- The buffers that `setResult` binds. -/
theorem bound (stmt : StmtResult) :
    SqlResultSet.Bound (stmt.fields.map (ResultBind.allocateResultBuffer stmt.timeSize))
      stmt.sizes where
  sizes_eq := by
    rw [List.map_map, sizes]
    exact List.map_congr_left fun field _ => ResultBind.bufferLength_allocate stmt.timeSize field
  sized bind hmem := by
    obtain ⟨field, -, rfl⟩ := List.mem_map.mp hmem
    exact ResultBind.allocate_sized stmt.timeSize field

/-- A cell by its row and its place in the row. -/
theorem cell_eq {stmt : StmtResult} {row col : Nat} {cells : List (Option (List UInt8))}
    {value : Option (List UInt8)} (hrow : stmt.rows[row]? = some cells)
    (hcol : cells[col]? = some value) : stmt.cell row col = value := by
  rw [cell, hrow, Option.bind_some, hcol]
  rfl

/-- There is a row and a column where there is a value. -/
theorem lt_of_cell {stmt : StmtResult} {row col : Nat} {value : List UInt8}
    (h : stmt.cell row col = some value) :
    row < stmt.rows.length ∧ col < stmt.fields.length := by
  rw [cell, Option.join_eq_some_iff, Option.bind_eq_some_iff] at h
  obtain ⟨cells, hrow, hcol⟩ := h
  obtain ⟨hlt, -⟩ := List.getElem?_eq_some_iff.mp hrow
  have hcol' := (List.getElem?_eq_some_iff.mp hcol).1
  rw [stmt.row_length cells (List.mem_of_getElem? hrow)] at hcol'
  exact ⟨hlt, hcol'⟩

/-- A value is copied exactly if its length is that of bytes in the buffer. -/
theorem ofCell_isSome {size : Nat} {value : Option (List UInt8)} :
    (SqlField.ofCell size value).isSome ↔
      ∀ bytes, value = some bytes →
        0 ≤ Block.intLength bytes.length ∧ Block.intLength bytes.length ≤ size := by
  cases value with
  | none => exact ⟨fun _ bytes h => (nomatch h), fun _ => rfl⟩
  | some bytes =>
    simp only [SqlField.ofCell, Option.some.injEq, forall_eq']
    split
    · next h => exact ⟨fun _ => h, fun _ => rfl⟩
    · next h => exact ⟨nofun, fun h' => absurd h' h⟩

/-- The row loop comes to its end exactly if everything fits, and shows the rows. -/
theorem copyRows_iff {stmt : StmtResult} (hbind : stmt.bindFails = false) :
    (SqlResultSet.copyRows (List.replicate stmt.tableSize .new)
        (stmt.fields.map (ResultBind.allocateResultBuffer stmt.timeSize)) 0 stmt.rows).isSome ↔
      stmt.Fits := by
  -- the table is as large as the product that wraps
  have hsize : stmt.tableSize < 2 ^ 32 := by
    rw [tableSize, if_neg (by rw [hbind]; decide)]
    exact Nat.mod_lt _ (by decide)
  have hwidth : ∀ row ∈ stmt.rows, row.length = stmt.sizes.length := by
    intro row hmem
    rw [length_sizes, stmt.row_length row hmem]
  constructor
  · intro h _
    obtain ⟨table, htable⟩ := Option.isSome_iff_exists.mp h
    obtain ⟨-, hle, hcols, -⟩ := SqlResultSet.copyRows_spec stmt.bound
      (by rwa [List.length_replicate]) (by omega) hwidth htable
    rw [List.length_replicate, length_sizes, Nat.zero_add] at hle
    refine ⟨hle, fun row col value hcell => ?_⟩
    obtain ⟨hrow, hcol⟩ := lt_of_cell hcell
    have hcells := List.getElem?_eq_getElem hrow
    have hlt : col < stmt.rows[row].length := by
      rwa [stmt.row_length _ (List.getElem_mem hrow)]
    obtain ⟨field, hfield, -⟩ := hcols row _ col _ _ hcells (getElem?_sizes hcol)
      (List.getElem?_eq_getElem hlt)
    rw [← cell_eq hcells (List.getElem?_eq_getElem hlt)] at hfield
    exact ofCell_isSome.mp (Option.isSome_of_eq_some hfield) value hcell
  · intro h
    obtain ⟨hle, hcells⟩ := h hbind
    apply SqlResultSet.copyRows_isSome stmt.bound (by rwa [List.length_replicate])
    · rwa [List.length_replicate, length_sizes, Nat.zero_add]
    · exact hwidth
    · intro cells hmem col size value hcol hvalue
      obtain ⟨row, hrow, rfl⟩ := List.getElem_of_mem hmem
      have hlt : col < stmt.fields.length := by
        rw [← length_sizes]
        exact (List.getElem?_eq_some_iff.mp hcol).1
      rw [getElem?_sizes hlt] at hcol
      obtain rfl := Option.some.inj hcol
      refine ofCell_isSome.mpr fun bytes hbytes => hcells row col bytes ?_
      rw [cell_eq (List.getElem?_eq_getElem hrow) hvalue, hbytes]

/-- After the copy the table shows the rows. -/
theorem shows_copyRows {stmt : StmtResult} {table : List SqlField}
    (hbind : stmt.bindFails = false)
    (h : SqlResultSet.copyRows (List.replicate stmt.tableSize .new)
      (stmt.fields.map (ResultBind.allocateResultBuffer stmt.timeSize)) 0 stmt.rows =
        some table) : stmt.Shows table := by
  -- the size of the table is a `uint32`
  have hsize : stmt.tableSize < 2 ^ 32 := by
    rw [tableSize, if_neg (by rw [hbind]; decide)]
    exact Nat.mod_lt _ (by decide)
  obtain ⟨hlength, -, hcols, hrest⟩ := SqlResultSet.copyRows_spec stmt.bound
    (by rwa [List.length_replicate]) (by omega)
    (fun row hmem => by rw [length_sizes, stmt.row_length row hmem]) h
  rw [length_sizes] at hcols hrest
  refine ⟨by rw [hlength, List.length_replicate], fun _ row col hrow hcol => ?_, ?_⟩
  · -- the field at the row and the column is the copy of its cell
    have hcells := List.getElem?_eq_getElem hrow
    have hlt : col < stmt.rows[row].length := by
      rwa [stmt.row_length _ (List.getElem_mem hrow)]
    have hvalue := List.getElem?_eq_getElem hlt
    obtain ⟨field, hfield, hget⟩ := hcols row _ col _ _ hcells (getElem?_sizes hcol) hvalue
    rw [Nat.zero_add] at hget
    exact ⟨field, by rw [cell_eq hcells hvalue, hfield], hget⟩
  · -- behind the rows the table is as it was made
    intro i field hi hget
    rw [hrest i (by rw [Nat.zero_add]; omega)] at hget
    exact List.eq_of_mem_replicate (List.mem_of_getElem? hget)

end StmtResult

namespace SqlResultSet

open StmtResult

/-- `setResult` has a result exactly if everything fits. -/
theorem setResult_isSome {stmt : StmtResult} : (setResult stmt).isSome ↔ stmt.Fits := by
  rw [setResult]
  by_cases hcount : stmt.rowCount = 0
  · -- without rows nothing is copied
    rw [if_pos hcount]
    refine ⟨fun _ _ => ⟨?_, fun row col value hcell => ?_⟩, fun _ => rfl⟩
    · have := stmt.rows_le
      have hrows : stmt.rows.length = 0 := by omega
      rw [hrows, Nat.zero_mul]
      exact Nat.zero_le _
    · have := (lt_of_cell hcell).1
      have := stmt.rows_le
      omega
  · rw [if_neg hcount]
    by_cases hbind : stmt.bindFails
    · rw [if_pos hbind]
      exact ⟨fun _ h => absurd (hbind.symm.trans h) (by decide), fun _ => rfl⟩
    · have hfalse : stmt.bindFails = false := by simpa using hbind
      rw [if_neg hbind, ← copyRows_iff hfalse, tableSize, if_neg hbind]
      dsimp only
      rw [Option.isSome_map]

/-- The state after `setResult`. -/
structure Made (stmt : StmtResult) (s : SqlResultSet) : Prop where
  shows_fields : stmt.Shows s.fields
  currRowIdx_eq : s.currRowIdx = -1
  currColIdx_eq : s.currColIdx = 0
  rowCount_eq : s.rowCount = stmt.rowCount
  fieldCount_eq : s.fieldCount = stmt.fields.length

/-- After `setResult` the table shows the rows, and the cursor stands before the first one. -/
theorem setResult_made {stmt : StmtResult} {s : SqlResultSet} (h : setResult stmt = some s) :
    Made stmt s := by
  have hempty : stmt.tableSize = 0 → (stmt.bindFails = false → stmt.rows.length = 0) →
      stmt.Shows [] := by
    intro hsize hrows
    refine ⟨hsize.symm, fun hbind row col hrow => ?_, fun i field _ hget => (nomatch hget)⟩
    rw [hrows hbind] at hrow
    exact absurd hrow (Nat.not_lt_zero row)
  rw [setResult] at h
  split at h
  · next hcount =>
    obtain rfl := Option.some.inj h
    have := stmt.rows_le
    refine ⟨hempty ?_ (fun _ => by omega), rfl, rfl, rfl, rfl⟩
    rw [tableSize, hcount, Nat.zero_mod, Nat.zero_mul, Nat.zero_mod, ite_self]
  · split at h
    · next hbind =>
      obtain rfl := Option.some.inj h
      refine ⟨hempty (if_pos hbind) fun hfalse => ?_, rfl, rfl, rfl, rfl⟩
      exact absurd (hbind.symm.trans hfalse) (by decide)
    · next hbind =>
      have hfalse : stmt.bindFails = false := by simpa using hbind
      obtain ⟨table, htable, rfl⟩ := Option.map_eq_some_iff.mp h
      refine ⟨shows_copyRows hfalse ?_, rfl, rfl, rfl, rfl⟩
      rwa [tableSize, if_neg hbind]

/-! ## Calls -/

/-- The calls on a result set. -/
inductive Call where
  | fetch
  | getInt8
  | getUint8
  | getInt16
  | getUint16
  | getInt32
  | getUint32
  | getInt64
  | getUint64
  | getFloat
  | getDouble
  | getString
  | getStrview
  deriving DecidableEq, Repr

/-- What `fetch` answers, and the bytes that a getter answers with. -/
inductive Answer where
  | flag (b : Bool)
  | bytes (b : List UInt8)
  deriving DecidableEq, Repr

/-- A call with its answer. -/
def call (s : SqlResultSet) : Call → Option (Answer × SqlResultSet)
  | .fetch => some (.flag s.fetch.1, s.fetch.2)
  | .getInt8 => s.getInt8.map (Prod.map .bytes id)
  | .getUint8 => s.getUint8.map (Prod.map .bytes id)
  | .getInt16 => s.getInt16.map (Prod.map .bytes id)
  | .getUint16 => s.getUint16.map (Prod.map .bytes id)
  | .getInt32 => s.getInt32.map (Prod.map .bytes id)
  | .getUint32 => s.getUint32.map (Prod.map .bytes id)
  | .getInt64 => s.getInt64.map (Prod.map .bytes id)
  | .getUint64 => s.getUint64.map (Prod.map .bytes id)
  | .getFloat => s.getFloat.map (Prod.map .bytes id)
  | .getDouble => s.getDouble.map (Prod.map .bytes id)
  | .getString => s.getString.map (Prod.map .bytes id)
  | .getStrview => s.getStrview.map (Prod.map .bytes id)

/-- What a getter reads: a scalar of some size, or the whole text. -/
inductive Kind where
  | scalar (size : Nat)
  | text
  deriving DecidableEq, Repr

/-- `fetch` is no getter. -/
def Call.kind : Call → Option Kind
  | fetch => none
  | getInt8 => some (.scalar 1)
  | getUint8 => some (.scalar 1)
  | getInt16 => some (.scalar 2)
  | getUint16 => some (.scalar 2)
  | getInt32 => some (.scalar 4)
  | getUint32 => some (.scalar 4)
  | getInt64 => some (.scalar 8)
  | getUint64 => some (.scalar 8)
  | getFloat => some (.scalar 4)
  | getDouble => some (.scalar 8)
  | getString => some .text
  | getStrview => some .text

/-- The getter of a kind. -/
def Kind.get : Kind → SqlResultSet → Option (List UInt8 × SqlResultSet)
  | scalar size => getScalar size
  | text => SqlResultSet.getString

/-- The answers that are right for the bytes delivered for a field, of which there are none
where the column is NULL. -/
def Kind.Right : Kind → Option (List UInt8) → List UInt8 → Prop
  | scalar size, none, bytes => bytes = List.replicate size 0
  | scalar size, some delivered, bytes => Block.read delivered size = some bytes
  | text, none, bytes => bytes = []
  | text, some delivered, bytes => bytes <+: delivered

/-- `fetch` answers with a flag. -/
theorem call_fetch (s : SqlResultSet) : s.call .fetch = some (.flag s.fetch.1, s.fetch.2) := rfl

/-- Every other call is the getter of its kind. -/
theorem call_get (s : SqlResultSet) {c : Call} {kind : Kind} (h : c.kind = some kind) :
    s.call c = (kind.get s).map (Prod.map .bytes id) := by
  cases c with
  | fetch => exact nomatch h
  | _ =>
    obtain rfl := Option.some.inj h
    rfl

/-- No scalar is empty. -/
theorem kind_pos {c : Call} {size : Nat} (h : c.kind = some (.scalar size)) : 0 < size := by
  cases c with
  | fetch => exact nomatch h
  | getString => exact nomatch h
  | getStrview => exact nomatch h
  | _ =>
    obtain rfl := Kind.scalar.inj (Option.some.inj h)
    decide

/-- A result set, with the number of rows fetched and the number of getters called since the
last of them. -/
structure Session where
  stmt : StmtResult
  result : SqlResultSet
  fetched : Nat
  gets : Nat

namespace Session

/-- A session begins when `setResult` has copied the rows. -/
def start (stmt : StmtResult) : Option Session :=
  (setResult stmt).map fun s => { stmt := stmt, result := s, fetched := 0, gets := 0 }

/-- A fetched row sets the getters back to its first column. -/
def step (t : Session) (c : Call) : Option Session :=
  (t.result.call c).map fun (answer, s) =>
    match answer with
    | .flag true => { t with result := s, fetched := t.fetched + 1, gets := 0 }
    | .flag false => { t with result := s }
    | .bytes _ => { t with result := s, gets := t.gets + 1 }

/-- The value of the column that the next getter is for. -/
def cell (t : Session) : Option (List UInt8) :=
  if t.fetched = 0 then none else t.stmt.cell (t.fetched - 1) t.gets

/-- The bytes of it that were delivered. -/
def delivered (t : Session) : Option (List UInt8) :=
  t.cell.map fun value => value.take (t.stmt.bufferLength t.gets)

/-- `fetch` is true once for each row, and the getter for a column reads what was delivered for
that column and answers with it. -/
def Safe (t : Session) (c : Call) : Prop :=
  ∃ answer s, t.result.call c = some (answer, s) ∧
    (c = .fetch → answer = .flag (t.fetched < t.stmt.rowCount)) ∧
    ∀ kind, c.kind = some kind → ∃ bytes, answer = .bytes bytes ∧ kind.Right t.delivered bytes

/-- The column index is an `int`; a column has its place in the table; and a scalar of a row
that was delivered is not NULL, and has as many bytes as the getter reads. -/
def Fits (t : Session) (c : Call) : Prop :=
  ∀ kind, c.kind = some kind →
    t.gets + 1 < 2 ^ 31 ∧
    (0 < t.fetched → t.gets < t.stmt.fields.length →
      (t.fetched - 1) * t.stmt.fields.length + t.gets < t.stmt.tableSize ∧
      ∀ size, kind = .scalar size → t.fetched ≤ t.stmt.rows.length →
        ∃ value, t.cell = some value ∧ size ≤ Block.intLength value.length)

/-! ## One call -/

/-- The cursor is at the row that was fetched last, and behind the columns that were read. -/
structure At (t : Session) : Prop where
  shows_fields : t.stmt.Shows t.result.fields
  currRowIdx_eq : t.result.currRowIdx = t.fetched - 1
  currColIdx_eq : t.result.currColIdx = t.gets
  rowCount_eq : t.result.rowCount = t.stmt.rowCount
  fieldCount_eq : t.result.fieldCount = t.stmt.fields.length
  fetched_le : t.fetched ≤ t.stmt.rowCount

/-- A session begins before its first row. -/
theorem start_at {stmt : StmtResult} {t : Session} (h : start stmt = some t) : t.At := by
  obtain ⟨s, hs, rfl⟩ := Option.map_eq_some_iff.mp h
  have hmade := setResult_made hs
  exact ⟨hmade.shows_fields, hmade.currRowIdx_eq, hmade.currColIdx_eq, hmade.rowCount_eq,
    hmade.fieldCount_eq, Nat.zero_le _⟩

/-- `fetch` is true while there are rows left. -/
theorem At.fetch_eq {t : Session} (h : t.At) :
    t.result.fetch =
      if t.fetched < t.stmt.rowCount then
        (true, { t.result with currRowIdx := t.fetched, currColIdx := 0 })
      else (false, t.result) := by
  have hrow := h.currRowIdx_eq
  have hcount := h.rowCount_eq
  rw [SqlResultSet.fetch]
  by_cases hlt : t.fetched < t.stmt.rowCount
  · have hnext : t.result.currRowIdx + 1 = t.fetched := by omega
    rw [if_neg (by omega), if_pos hlt, hnext]
  · rw [if_pos (by omega), if_neg hlt]

/-- No column is left, or no row has been fetched. -/
theorem At.nextField_outside {t : Session} (h : t.At) (hcol : t.gets + 1 < 2 ^ 31)
    (hout : t.fetched = 0 ∨ t.stmt.fields.length ≤ t.gets) :
    t.result.nextField = some (none, { t.result with currColIdx := t.gets + 1 }) := by
  have hget : t.result.getField t.gets = some none := by
    rw [getField, h.currRowIdx_eq, h.fieldCount_eq, if_pos (by omega)]
  rw [nextField, h.currColIdx_eq, if_pos hcol, hget]
  rfl

/-- The field of the column that the cursor is at. -/
theorem At.nextField_inside {t : Session} (h : t.At) (hcol : t.gets + 1 < 2 ^ 31)
    (hfetched : 0 < t.fetched) (hgets : t.gets < t.stmt.fields.length) :
    t.result.nextField =
      (t.result.fields[(t.fetched - 1) * t.stmt.fields.length + t.gets]?).map fun field =>
        (if field.isEmpty then none else some field,
          { t.result with currColIdx := t.gets + 1 }) := by
  have hle := h.fetched_le
  have hindex : (((t.fetched : Int) - 1) * t.stmt.fields.length + t.gets).toNat =
      (t.fetched - 1) * t.stmt.fields.length + t.gets := by
    have hcast : ((t.fetched : Int) - 1) = ((t.fetched - 1 : Nat) : Int) := by omega
    rw [hcast, ← Int.natCast_mul, ← Int.natCast_add, Int.toNat_natCast]
  have hget : t.result.getField t.gets =
      (t.result.fields[(t.fetched - 1) * t.stmt.fields.length + t.gets]?).map fun field =>
        if field.isEmpty then none else some field := by
    rw [getField, h.currRowIdx_eq, h.fieldCount_eq, h.rowCount_eq, if_neg (by omega), hindex]
  rw [nextField, h.currColIdx_eq, if_pos hcol, hget, Option.map_map]
  rfl

/-- There is no value where the cursor is outside, and none in a row that was not delivered. -/
theorem cell_eq_none {t : Session}
    (h : t.fetched = 0 ∨ t.stmt.fields.length ≤ t.gets ∨ t.stmt.rows.length < t.fetched) :
    t.cell = none := by
  rw [cell]
  split
  · rfl
  · next hne =>
    cases hcell : t.stmt.cell (t.fetched - 1) t.gets with
    | none => rfl
    | some value =>
      have := lt_of_cell hcell
      omega

/-- What a getter answers with where there is no field. -/
theorem right_default {t : Session} (kind : Kind) (hcell : t.cell = none)
    {s : SqlResultSet} (hnext : t.result.nextField = some (none, s)) :
    ∃ bytes s', kind.get t.result = some (bytes, s') ∧ kind.Right t.delivered bytes := by
  rw [delivered, hcell]
  cases kind with
  | scalar size => exact ⟨_, s, by rw [Kind.get, getScalar, hnext], rfl⟩
  | text => exact ⟨_, s, by rw [Kind.get, SqlResultSet.getString, hnext], rfl⟩

/-- A getter without a field has no result. -/
theorem get_eq_none {s : SqlResultSet} (hnext : s.nextField = none) (kind : Kind) :
    kind.get s = none := by
  cases kind with
  | scalar size => rw [Kind.get, getScalar, hnext]
  | text => rw [Kind.get, SqlResultSet.getString, hnext]

/-- A scalar getter reads the next field. -/
theorem getScalar_eq {s s' : SqlResultSet} {field : SqlField}
    (hnext : s.nextField = some (some field, s')) (size : Nat) :
    getScalar size s = (field.getValue size).map fun bytes => (bytes, s') := by
  rw [getScalar, hnext]

/-- `getString` reads the next field. -/
theorem getString_eq {s s' : SqlResultSet} {field : SqlField}
    (hnext : s.nextField = some (some field, s')) :
    s.getString = field.getString.map fun bytes => (bytes, s') := by
  rw [SqlResultSet.getString, hnext]

/-- The answer for the field of a value, of which `buffer` bytes were delivered. -/
theorem right_value {s s' : SqlResultSet} {value : List UInt8} {len : Int} {buffer : Nat}
    (hpos : 0 ≤ len) (hle : len ≤ value.length) (hbuffer : len ≤ buffer)
    (hnext : s.nextField = some (some { buff := some (value.take len.toNat), len := len }, s'))
    (kind : Kind) :
    (∃ bytes s₁, kind.get s = some (bytes, s₁) ∧ kind.Right (some (value.take buffer)) bytes) ↔
      ∀ size, kind = .scalar size → size ≤ len := by
  have hread {n size : Nat} (hn : size ≤ n) (hv : size ≤ value.length) :
      -- enough bytes were delivered, so the getter reads the value's own
      Block.read (value.take n) size = some (value.take size) := by
    refine Block.read_eq_some.mpr ⟨?_, ?_⟩
    · rw [List.length_take]
      omega
    · rw [List.take_take, Nat.min_eq_left hn]
  cases kind with
  | scalar size =>
    simp only [Kind.get, getScalar_eq hnext, SqlField.getValue, Option.getD_some, Kind.Right,
      Kind.scalar.injEq, forall_eq']
    constructor
    -- a getter that ends has read inside the buffer
    · intro ⟨bytes, s₁, hget, _⟩
      obtain ⟨cells, hcells, -⟩ := Option.map_eq_some_iff.mp hget
      have hlen := (Block.read_eq_some.mp hcells).1
      rw [List.length_take] at hlen
      omega
    · intro hsize
      exact ⟨value.take size, s', by rw [hread (by omega) (by omega)]; rfl,
        hread (by omega) (by omega)⟩
  | text =>
    have hget : (SqlField.getString { buff := some (value.take len.toNat), len := len }) =
        some (value.take len.toNat) := by
      have hsize : len.toNat ≤ value.length := by omega
      rw [SqlField.getString, if_neg (Int.not_lt.mpr hpos), Option.getD_some]
      refine Block.read_eq_some.mpr ⟨?_, ?_⟩
      · exact Nat.le_of_eq (List.length_take_of_le hsize).symm
      · rw [List.take_take, Nat.min_self]
    rw [Kind.get, getString_eq hnext, hget]
    exact ⟨fun _ size h => (nomatch h),
      fun _ => ⟨_, _, rfl, List.take_prefix_take_left (by omega)⟩⟩

/-- What a getter answers with for a field that was copied. -/
theorem right_field {t : Session} {kind : Kind} {field : SqlField} {s : SqlResultSet}
    (hpos : ∀ size, kind = .scalar size → 0 < size)
    (hfield : SqlField.ofCell (t.stmt.bufferLength t.gets) t.cell = some field)
    (hnext : t.result.nextField = some (some field, s)) :
    (∃ bytes s', kind.get t.result = some (bytes, s') ∧ kind.Right t.delivered bytes) ↔
      ∀ size, kind = .scalar size →
        ∃ value, t.cell = some value ∧ size ≤ Block.intLength value.length := by
  rw [delivered]
  cases hcell : t.cell with
  | none =>
    -- NULL is a field of no bytes
    rw [hcell, SqlField.ofCell_none, Option.some.injEq] at hfield
    rw [← hfield] at hnext
    cases kind with
    | scalar size =>
      have hread : Block.read ([] : List UInt8) size = none :=
        if_neg (Nat.not_le.mpr (hpos size rfl))
      rw [Kind.get, getScalar_eq hnext, SqlField.getValue, Option.getD_some, hread]
      exact ⟨fun ⟨_, _, h, _⟩ => (nomatch h), fun h => (nomatch (h size rfl).choose_spec.1)⟩
    | text =>
      rw [Kind.get, getString_eq hnext]
      exact ⟨fun _ size h => (nomatch h), fun _ => ⟨[], s, rfl, rfl⟩⟩
  | some value =>
    rw [hcell] at hfield
    obtain ⟨hlow, hhigh, rfl⟩ := SqlField.ofCell_some hfield
    simp only [Option.some.injEq, exists_eq_left', Option.map_some]
    exact right_value hlow (Block.intLength_le value.length) hhigh hnext kind

/-- What a getter needs to answer right. -/
theorem At.right_iff {t : Session} (h : t.At) {kind : Kind}
    (hpos : ∀ size, kind = .scalar size → 0 < size) :
    (∃ bytes s, kind.get t.result = some (bytes, s) ∧ kind.Right t.delivered bytes) ↔
      t.gets + 1 < 2 ^ 31 ∧
      (0 < t.fetched → t.gets < t.stmt.fields.length →
        (t.fetched - 1) * t.stmt.fields.length + t.gets < t.stmt.tableSize ∧
        ∀ size, kind = .scalar size → t.fetched ≤ t.stmt.rows.length →
          ∃ value, t.cell = some value ∧ size ≤ Block.intLength value.length) := by
  by_cases hcol : t.gets + 1 < 2 ^ 31
  · by_cases hin : 0 < t.fetched ∧ t.gets < t.stmt.fields.length
    · have hnext := h.nextField_inside hcol hin.1 hin.2
      have hlength := h.shows_fields.length_eq
      cases hget : t.result.fields[(t.fetched - 1) * t.stmt.fields.length + t.gets]? with
      | none =>
        rw [List.getElem?_eq_none_iff, hlength] at hget
        rw [get_eq_none (by rw [hnext, List.getElem?_eq_none (by omega)]; rfl)]
        refine ⟨fun ⟨_, _, h, _⟩ => (nomatch h), fun hfits => ?_⟩
        have := (hfits.2 hin.1 hin.2).1
        omega
      | some field =>
        rw [hget, Option.map_some] at hnext
        have hlt := (List.getElem?_eq_some_iff.mp hget).1
        rw [hlength] at hlt
        by_cases hrow : t.fetched ≤ t.stmt.rows.length
        · -- the row was delivered
          have hbind : t.stmt.bindFails = false := by
            cases hfails : t.stmt.bindFails with
            | false => rfl
            | true =>
              rw [tableSize, if_pos hfails] at hlt
              exact absurd hlt (Nat.not_lt_zero _)
          obtain ⟨field', hfield, hget'⟩ :=
            h.shows_fields.field_eq hbind (t.fetched - 1) t.gets (by omega) hin.2
          obtain rfl := Option.some.inj (hget'.symm.trans hget)
          have hcell : t.stmt.cell (t.fetched - 1) t.gets = t.cell := by
            rw [cell, if_neg (by omega)]
          rw [hcell] at hfield
          rw [if_neg (by rw [SqlField.ofCell_isEmpty hfield]; decide)] at hnext
          rw [right_field hpos hfield hnext]
          constructor
          · intro hvalue
            exact ⟨hcol, fun _ _ => ⟨hlt, fun size hsize _ => hvalue size hsize⟩⟩
          · intro hfits size hsize
            exact (hfits.2 hin.1 hin.2).2 size hsize hrow
        · -- the row was counted, but an error came before it
          obtain rfl : field = .new := by
            refine h.shows_fields.new_of_le _ field ?_ hget
            have := Nat.mul_le_mul_right t.stmt.fields.length
              (show t.stmt.rows.length ≤ t.fetched - 1 by omega)
            omega
          have hcell : t.cell = none := cell_eq_none (.inr (.inr (by omega)))
          refine ⟨fun _ => ⟨hcol, fun _ _ => ⟨hlt, fun _ _ hle => absurd hle hrow⟩⟩, fun _ => ?_⟩
          exact right_default kind hcell hnext
    · have hcell : t.cell = none := cell_eq_none (by omega)
      refine ⟨fun _ => ⟨hcol, fun h₁ h₂ => absurd ⟨h₁, h₂⟩ hin⟩, fun _ => ?_⟩
      exact right_default kind hcell (h.nextField_outside hcol (by omega))
  · rw [get_eq_none (by rw [nextField, h.currColIdx_eq, if_neg hcol])]
    exact ⟨fun ⟨_, _, h, _⟩ => (nomatch h), fun hfits => absurd hfits.1 hcol⟩

/-! ## Runs -/

/-- A call goes well exactly if it fits. -/
theorem safe_iff {t : Session} {c : Call} (h : t.At) : t.Safe c ↔ t.Fits c := by
  cases hkind : c.kind with
  | none =>
    -- the only call without a kind
    have hc : c = .fetch := by
      cases c <;> first | rfl | exact nomatch hkind
    subst hc
    refine ⟨fun _ kind hk => (nomatch hk),
      fun _ => ⟨_, _, rfl, fun _ => ?_, fun kind hk => (nomatch hk)⟩⟩
    rw [h.fetch_eq]
    split
    · next hlt => rw [decide_eq_true hlt]
    · next hlt => rw [decide_eq_false hlt]
  | some kind =>
    have hcall := call_get t.result hkind
    have hne : c ≠ .fetch := by
      intro hc
      rw [hc] at hkind
      exact nomatch hkind
    have hpos : ∀ size, kind = .scalar size → 0 < size := by
      intro size hsize
      rw [hsize] at hkind
      exact kind_pos hkind
    -- the answer of a read is its bytes
    have hsafe : t.Safe c ↔ ∃ bytes s, kind.get t.result = some (bytes, s) ∧
        kind.Right t.delivered bytes := by
      constructor
      · intro ⟨answer, s, hanswer, _, hright⟩
        rw [hcall] at hanswer
        obtain ⟨⟨bytes, s'⟩, hget, heq⟩ := Option.map_eq_some_iff.mp hanswer
        obtain ⟨bytes', hbytes, hright⟩ := hright kind hkind
        obtain ⟨rfl, rfl⟩ := Prod.mk.inj heq
        obtain rfl := Answer.bytes.inj hbytes
        exact ⟨bytes, s', hget, hright⟩
      · intro ⟨bytes, s, hget, hright⟩
        refine ⟨.bytes bytes, s, by rw [hcall, hget]; rfl, fun hc => absurd hc hne, ?_⟩
        intro kind' hkind'
        obtain rfl := Option.some.inj (hkind.symm.trans hkind')
        exact ⟨bytes, rfl, hright⟩
    rw [hsafe]
    simp only [Fits, hkind, Option.some.injEq, forall_eq']
    exact h.right_iff hpos

/-- A getter consumes one column, and changes nothing else. -/
theorem get_state {s s' : SqlResultSet} {kind : Kind} {bytes : List UInt8}
    (h : kind.get s = some (bytes, s')) : s' = { s with currColIdx := s.currColIdx + 1 } := by
  -- every read goes through `nextField`
  have hnext : ∀ {field s₁}, s.nextField = some (field, s₁) →
      s₁ = { s with currColIdx := s.currColIdx + 1 } := by
    intro field s₁ hnext
    rw [nextField] at hnext
    split at hnext
    · obtain ⟨_, -, heq⟩ := Option.map_eq_some_iff.mp hnext
      exact (Prod.mk.inj heq).2.symm
    · exact nomatch hnext
  cases hfield : s.nextField with
  | none =>
    rw [get_eq_none hfield] at h
    exact nomatch h
  | some p =>
    obtain ⟨field, s₁⟩ := p
    obtain rfl := hnext hfield
    cases field with
    | none =>
      cases kind with
      | scalar size =>
        rw [Kind.get, getScalar, hfield] at h
        exact (Prod.mk.inj (Option.some.inj h)).2.symm
      | text =>
        rw [Kind.get, SqlResultSet.getString, hfield] at h
        exact (Prod.mk.inj (Option.some.inj h)).2.symm
    | some field =>
      cases kind with
      | scalar size =>
        rw [Kind.get, getScalar_eq hfield] at h
        obtain ⟨_, -, heq⟩ := Option.map_eq_some_iff.mp h
        exact (Prod.mk.inj heq).2.symm
      | text =>
        rw [Kind.get, getString_eq hfield] at h
        obtain ⟨_, -, heq⟩ := Option.map_eq_some_iff.mp h
        exact (Prod.mk.inj heq).2.symm

/-- Every call keeps the cursor where the count of rows and columns says. -/
theorem step_at {t t' : Session} {c : Call} (h : t.At) (hstep : t.step c = some t') : t'.At := by
  obtain ⟨⟨answer, s⟩, hcall, rfl⟩ := Option.map_eq_some_iff.mp hstep
  cases hkind : c.kind with
  | none =>
    have hc : c = .fetch := by
      cases c <;> first | rfl | exact nomatch hkind
    rw [hc, call_fetch, h.fetch_eq] at hcall
    obtain ⟨rfl, rfl⟩ := Prod.mk.inj (Option.some.inj hcall)
    -- a row is fetched while there is one
    by_cases hlt : t.fetched < t.stmt.rowCount
    · simp only [if_pos hlt]
      exact ⟨h.shows_fields, by dsimp only; omega, rfl, h.rowCount_eq, h.fieldCount_eq, hlt⟩
    · simp only [if_neg hlt]
      exact h
  | some kind =>
    rw [call_get t.result hkind] at hcall
    obtain ⟨⟨bytes, s'⟩, hget, heq⟩ := Option.map_eq_some_iff.mp hcall
    obtain ⟨rfl, rfl⟩ := Prod.mk.inj heq
    obtain rfl := get_state hget
    exact ⟨h.shows_fields, h.currRowIdx_eq, congrArg (· + 1) h.currColIdx_eq, h.rowCount_eq,
      h.fieldCount_eq, h.fetched_le⟩

/-- A statement result is copied and all getters of a run are right exactly if the result fits
into its buffers and every getter fits its column. -/
theorem gets_safe (stmt : StmtResult) (cs : List Call) :
    (∃ t, start stmt = some t ∧ Run.Meets step Safe t cs) ↔
      stmt.Fits ∧ ∀ t, start stmt = some t → Run.Meets step Fits t cs := by
  -- call by call, as each leaves the cursor where the next one expects it
  have hrun : ∀ {t : Session} (_ : t.At) (cs : List Call),
      Run.Meets step Safe t cs ↔ Run.Meets step Fits t cs := by
    intro t h cs
    induction cs generalizing t with
    | nil => exact Iff.rfl
    | cons c cs ih =>
      rw [Run.Meets, Run.Meets, safe_iff h]
      refine and_congr_right fun _ => ?_
      split
      · next t' hstep => exact ih (step_at h hstep)
      · exact Iff.rfl
  have hstart : (start stmt).isSome ↔ stmt.Fits := by
    rw [start, Option.isSome_map, setResult_isSome]
  rw [← hstart]
  constructor
  · intro h
    obtain ⟨t, ht, hmeets⟩ := h
    refine ⟨Option.isSome_of_eq_some ht, fun t' ht' => ?_⟩
    obtain rfl := Option.some.inj (ht.symm.trans ht')
    exact (hrun (start_at ht) cs).mp hmeets
  · intro h
    obtain ⟨hsome, hmeets⟩ := h
    obtain ⟨t, ht⟩ := Option.isSome_iff_exists.mp hsome
    exact ⟨t, ht, (hrun (start_at ht) cs).mpr (hmeets t ht)⟩

/-- A column of integers with NULL in its only row. -/
def nullResult : StmtResult :=
  { fields := [{ type := .long, flags := 0, length := 11, maxLength := 0 }]
    rowCount := 1
    rows := [[none]]
    bindFails := false
    timeSize := 40
    fields_lt := by decide
    rows_le := by decide
    row_length := by decide }

/-- The getter of a NULL integer. -/
theorem null_unsafe :
    ¬ ∀ (stmt : StmtResult) (cs : List Call), ∃ t, start stmt = some t ∧
      Run.Meets step Safe t cs := by
  intro h
  obtain ⟨t, ht, -, ⟨answer, s, hcall, -⟩, -⟩ := h nullResult [.fetch, .getInt32]
  obtain rfl := Option.some.inj ht
  exact nomatch hcall

end Session

end SqlResultSet

end Athena
