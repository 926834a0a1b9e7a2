import Athena.Spec.ByteBufQueue
import Athena.Spec.CfgBytes

/-!
# Loading the configuration

`Cfg.init` reads the files of all tables through one buffer.  From whole files it gives the
tables that were written, with the rows in order and the last row under every key
(`config_loaded`).
-/

namespace Athena.Luban

open Reader ByteBuf

/-! ## The rows of a table -/

namespace Table

/-- The bytes of a table with these rows. -/
def bytes (t : Table) (rows : List t.row.Val) : List UInt8 :=
  sizeBytes rows.length ++ rows.flatMap t.row.bytes

/-- Every row has a byte. -/
theorem length_rows_le (t : Table) (rows : List t.row.Val) :
    rows.length ≤ (rows.flatMap t.row.bytes).length := by
  have h := length_le_flatMap (m := 1) fun v (_ : v ∈ rows) => t.row.bytes_pos t.pos v
  omega

/-- The rows are read and pushed one after the other. -/
theorem reads_loadRows {t : Table} (tb : Data t) (rows : List t.row.Val) :
    Reads view (loadRows rows.length tb) (rows.flatMap t.row.bytes) (rows.foldl Data.push tb) := by
  induction rows generalizing tb with
  | nil => exact Reads.pure tb
  | cons v rows ih =>
    rw [List.flatMap_cons]
    exact (t.row.reads t.ok v).bind (ih (tb.push v))

/-- The size that is read is the number of the rows. -/
theorem toNat_size {n : Nat} (h : n ≤ 2 ^ 30) : (Int32.ofNat n).toNatClampNeg = n :=
  Int32.toNatClampNeg_ofNat_of_lt (by omega)

/-- Loading a table file pushes its rows one after another. -/
theorem reads_load {t : Table} (tb : Data t) (rows : List t.row.Val) :
    Reads view (load tb) (t.bytes rows) (rows.foldl Data.push tb) := by
  intro buf bs hroom hs
  have hbound : buf._beginPos + (t.bytes rows).length ≤ 2 ^ 30 := hroom
  have hrows := t.length_rows_le rows
  rw [bytes, List.length_append] at hbound
  refine Reads.bind (reads_readSize rows.length) ?_ buf bs hroom hs
  rw [toNat_size (by omega)]
  exact reads_loadRows tb rows

/-- The rows come behind those from before. -/
theorem foldl_push_dataList {t : Table} (tb : Data t) (rows : List t.row.Val) :
    (rows.foldl Data.push tb)._dataList = tb._dataList ++ rows := by
  induction rows generalizing tb with
  | nil => exact (List.append_nil _).symm
  | cons v rows ih =>
    rw [List.foldl_cons, ih, Data.push, List.append_assoc]
    rfl

/-- A row is found under its key, which may have been that of another. -/
theorem push_get {t : Table} (tb : Data t) (v : t.row.Val) (key : Key) :
    (tb.push v).get key = if t.keyOf v = key then some v else tb.get key := by
  simp only [Data.get, Data.push]
  split
  · rename_i h
    rw [← h, AList.lookup_insert]
  · rename_i h
    exact AList.lookup_insert_ne (Ne.symm h)

/-- The row that is found under a key is the last one with that key. -/
theorem foldl_push_get {t : Table} (tb : Data t) (rows : List t.row.Val) (key : Key) :
    (rows.foldl Data.push tb).get key =
      (rows.reverse.find? fun v => t.keyOf v = key).or (tb.get key) := by
  induction rows generalizing tb with
  | nil => rfl
  | cons v rows ih =>
    rw [List.foldl_cons, ih, push_get, List.reverse_cons, List.find?_append, Option.or_assoc]
    congr 1
    by_cases h : t.keyOf v = key <;> simp [h]

end Table

/-! ## The files -/

/-- A file that is read leaves its bytes in the buffer. -/
theorem loadFromFile_done {files : Files} {file : String} {bytes : List UInt8} {buf : ByteBuf}
    (hg : Grown buf._data.length) (hfile : files file = some bytes)
    (hlen : bytes.length < 2 ^ 30) :
    ∃ buf', loadFromFile files file buf = .done () buf' ∧ buf'.contents = bytes ∧
      Grown buf'._data.length := by
  have hgclear : Grown buf.clear._data.length := hg
  have hclear : buf.clear.contents = [] := rfl
  have hroom : buf.clear.size + bytes.length < 2 ^ 30 := by
    have hsize : buf.clear.size = 0 := rfl
    omega
  obtain ⟨buf', hput, hcontents, hgrown⟩ := put_spec hgclear hroom
  refine ⟨buf', ?_, by rw [hcontents, hclear, List.nil_append], hgrown⟩
  simp only [loadFromFile, hfile, appendBuffer, hput]

/-- Room for what a buffer holds. -/
theorem room_contents {buf : ByteBuf} {bs t : List UInt8} (hg : Grown buf._data.length)
    (h : buf.contents = bs ++ t) : view.room bs.length buf := by
  have hle := hg.le
  have hb := buf.begin_le
  have he := buf.end_le
  have hsize : buf.size = bs.length + t.length := by rw [← length_contents, h, List.length_append]
  rw [size] at hsize
  show buf._beginPos + bs.length ≤ 2 ^ 30
  omega

end Athena.Luban

namespace Athena.Cfg

open Luban Reader ByteBuf

/-- A table file, with anything behind its last row. -/
def WholeFile (filePath : String) (files : Files) (t : Table) (rows : List t.row.Val) : Prop :=
  ∃ junk, files (filePath ++ t.file ++ ".bytes") = some (t.bytes rows ++ junk) ∧
    (t.bytes rows ++ junk).length < 2 ^ 30

/-- All tables are loaded from their files. -/
theorem load_done {filePath : String} {files : Files} (rows : (t : Table) → List t.row.Val)
    {ts : List Table} (h : ∀ t ∈ ts, WholeFile filePath files t (rows t)) {buf : ByteBuf}
    (hg : Grown buf._data.length) :
    ∃ buf', Tables.load filePath files ts buf =
      .done (ts.map fun t => ⟨t, (rows t).foldl Table.Data.push (.new t)⟩) buf' := by
  induction ts generalizing buf with
  | nil => exact ⟨buf, rfl⟩
  | cons t ts ih =>
    obtain ⟨junk, hfile, hlen⟩ := h t List.mem_cons_self
    obtain ⟨mid, hload, hcontents, hgrown⟩ := loadFromFile_done hg hfile hlen
    have htable := Table.reads_load (.new t) (rows t) mid junk (room_contents hgrown hcontents)
      hcontents
    have hskip : Grown (mid.skip (t.bytes (rows t)).length)._data.length := hgrown
    obtain ⟨buf', hrest⟩ := ih (fun u hu => h u (List.mem_cons_of_mem t hu)) hskip
    refine ⟨buf', ?_⟩
    rw [Tables.load, bind_done hload, bind_done htable]
    exact bind_done hrest

/-- Loading the configuration gives the tables that the files were written from: the rows of
    every table in their order, and under a key the last row that has it. -/
theorem config_loaded (filePath : String) (files : Files) (rows : (t : Table) → List t.row.Val)
    (h : ∀ t ∈ tables, WholeFile filePath files t (rows t)) :
    ∃ loaded buf, init filePath files = .done loaded buf ∧ loaded.map Sigma.fst = tables ∧
      ∀ tb ∈ loaded, tb.2._dataList = rows tb.1 ∧
        ∀ key, tb.2.get key = (rows tb.1).reverse.find? fun v => tb.1.keyOf v = key := by
  have hnew : Grown ByteBuf.new._data.length := .inl rfl
  obtain ⟨buf, hinit⟩ := load_done rows h hnew
  refine ⟨_, buf, hinit, ?_, fun tb htb => ?_⟩
  · rw [List.map_map]
    exact List.map_id tables
  · obtain ⟨t, -, rfl⟩ := List.mem_map.mp htb
    refine ⟨Table.foldl_push_dataList (.new t) (rows t), fun key => ?_⟩
    rw [Table.foldl_push_get]
    exact Option.or_none

/-- Three rows in the two tables whose rows are one number, two of them under one key. -/
theorem config_loaded_sameKey :
    let rows : (t : Table) → List t.row.Val := fun
      | ⟨_, .cons _ .int .nil, _, _, _, _⟩ =>
        [((5 : Int32), ()), ((7 : Int32), ()), ((5 : Int32), ())]
      | _ => []
    let files : Files := fun file =>
      if file ∈ ["cfg/skilldata_tbskilllevelvaluegroup.bytes",
          "cfg/worldlevel_tbworldleveltypedesc.bytes"] then some [3, 5, 7, 5]
      else some [0]
    ∃ loaded buf, init "cfg/" files = .done loaded buf ∧ loaded.map Sigma.fst = tables ∧
      ∀ tb ∈ loaded, tb.2._dataList = rows tb.1 ∧
        ∀ key, tb.2.get key = (rows tb.1).reverse.find? fun v => tb.1.keyOf v = key := by
  intro rows files
  apply config_loaded
  have h : ∀ t ∈ tables, files ("cfg/" ++ t.file ++ ".bytes") = some (t.bytes (rows t)) ∧
      (t.bytes (rows t)).length < 2 ^ 30 := by decide +kernel
  intro t ht
  refine ⟨[], ?_⟩
  rw [List.append_nil]
  exact h t ht

end Athena.Cfg
