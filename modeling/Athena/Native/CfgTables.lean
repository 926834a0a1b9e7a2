import Athena.Native.CfgSchema

/-!
# The tables of the game's configuration (`code-gen/cfg-gen/schema.h`, `game/src/cfg/Cfg.cpp`)

A table file is a size and as many rows.  `load` keeps the rows in the order of the file and
under their keys, where a later row takes the place of an earlier one.  `Tables.load` reads
one file after another into one buffer, and `Cfg.init` says where the files are.
-/

namespace Athena.Luban

open Reader ByteBuf

/-! ## Well-formed types -/

mutual

/-- Every value takes at least a byte. -/
def Ty.pos : Ty → Bool
  | .bool | .int | .long | .float | .string | .vector _ | .hashMap _ _ | .abstract _ => true
  | .bean ms => ms.pos

def Members.pos : Members → Bool
  | .nil => false
  | .cons _ type rest => type.pos || rest.pos

end

def Beans.has : Beans → Int32 → Bool
  | .nil, _ => false
  | .cons id _ rest, i => id == i || rest.has i

mutual

/-- What the generator and the compiler see to: no value of a container is an empty bean, an
    abstract bean has derived ones, and the labels of a `switch` differ. -/
def Ty.ok : Ty → Bool
  | .bool | .int | .long | .float | .string => true
  | .vector elem => elem.pos && elem.ok
  | .hashMap _ val => val.pos && val.ok
  | .bean ms => ms.ok
  | .abstract bs => bs.ok && (match bs with | .nil => false | .cons _ _ _ => true)

def Members.ok : Members → Bool
  | .nil => true
  | .cons _ type rest => type.ok && rest.ok

def Beans.ok : Beans → Bool
  | .nil => true
  | .cons id ms rest => !rest.has id && ms.ok && rest.ok

end

/-! ## Tables -/

/-- The keys of a table: `int32`, an enumeration, or `int64`. -/
inductive Key where
  | int (x : Int32)
  | long (x : Int64)
  deriving DecidableEq, Repr

def Ty.key : (t : Ty) → t.Val → Option Key
  | .int, x => some (.int x)
  | .long, x => some (.long x)
  | _, _ => none

/-- `_v->name` as a key. -/
def Members.key : (ms : Members) → String → ms.Val → Option Key
  | .nil, _, _ => none
  | .cons name type rest, key, v => if name = key then type.key v.1 else rest.key key v.2

/-- The member `key` is there and is a number. -/
def Members.hasKey : Members → String → Bool
  | .nil, _ => false
  | .cons name type rest, key =>
    if name = key then
      match type with
      | .int | .long => true
      | _ => false
    else rest.hasKey key

/-- A bean has a key under the name of one of its members. -/
theorem Members.key_isSome : (ms : Members) → (key : String) → ms.hasKey key = true →
    (v : ms.Val) → (ms.key key v).isSome
  | .cons name type rest, key, h, v => by
    simp only [hasKey] at h
    simp only [Members.key]
    split
    · rename_i heq
      rw [if_pos heq] at h
      cases type <;> first | rfl | cases h
    · rename_i hne
      rw [if_neg hne] at h
      exact key_isSome rest key h v.2

/-- A table class: the file that it is loaded from, its rows, and the member that is their
    key. -/
structure Table where
  file : String
  row : Members
  key : String
  hasKey : row.hasKey key = true
  ok : row.ok = true
  pos : row.pos = true

namespace Table

/-- `_v->key` -/
def keyOf (t : Table) (v : t.row.Val) : Key :=
  (t.row.key t.key v).get (t.row.key_isSome t.key t.hasKey v)

/-- What a table object holds. -/
structure Data (t : Table) where
  _dataMap : AList fun _ : Key => t.row.Val
  _dataList : List t.row.Val

def Data.new (t : Table) : Data t := ⟨∅, []⟩

def Data.push {t : Table} (tb : Data t) (v : t.row.Val) : Data t :=
  ⟨tb._dataMap.insert (t.keyOf v) v, tb._dataList ++ [v]⟩

def Data.get {t : Table} (tb : Data t) (key : Key) : Option t.row.Val := tb._dataMap.lookup key

/-- `for (; n > 0; --n)` -/
def loadRows {t : Table} : Nat → Data t → Reader ByteBuf (Data t)
  | 0, tb => pure tb
  | n + 1, tb => do
    let v ← t.row.deserialize
    loadRows n (tb.push v)

def load {t : Table} (tb : Data t) : Reader ByteBuf (Data t) := do
  let n ← readSize
  loadRows n.toNatClampNeg tb

end Table

/-- The files that can be opened. -/
abbrev Files : Type := String → Option (List UInt8)

/-- `ByteBuf::loadFromFile` -/
def ByteBuf.loadFromFile (files : Files) (file : String) : Reader ByteBuf Unit := fun buf =>
  match files file with
  | none => .refused buf.clear
  | some bytes =>
    match buf.clear.appendBuffer bytes with
    | none => .undefined
    | some buf => .done () buf

end Athena.Luban

namespace Athena.Cfg

open Luban Reader

def TbHeroData : Table :=
  ⟨"herodata_tbherodata", .ofList HeroData, "Id", by decide, by decide, by decide⟩

def TbHeroDataInfo : Table :=
  ⟨"herodata_tbherodatainfo", .ofList HeroDataInfo, "Attribute", by decide, by decide, by decide⟩

def TbCampRelation : Table :=
  ⟨"camp_tbcamprelation", .ofList CampRelationData, "Id", by decide, by decide, by decide⟩

def TbPropsGroup : Table :=
  ⟨"herodata_tbpropsgroup", .ofList PropsGroup, "Group", by decide, by decide, by decide⟩

def TbScene : Table := ⟨"scene_tbscene", .ofList Scene, "id", by decide, by decide, by decide⟩

def TbLevel : Table := ⟨"scene_tblevel", .ofList Level, "Id", by decide, by decide, by decide⟩

def TbArea : Table := ⟨"scene_tbarea", .ofList Area, "Id", by decide, by decide, by decide⟩

def TbSceneObject : Table :=
  ⟨"scene_tbsceneobject", .ofList SceneObject, "Id", by decide, by decide, by decide⟩

def TbVisualObject : Table :=
  ⟨"scene_tbvisualobject", .ofList VisualObject, "Type", by decide, by decide, by decide⟩

def TbSkillData : Table :=
  ⟨"skilldata_tbskilldata", .ofList SkillData, "ID", by decide, by decide, by decide⟩

def TbSkill : Table := ⟨"skilldata_tbskill", .ofList Skill, "ID", by decide, by decide, by decide⟩

def TbHeroGA : Table :=
  ⟨"skilldata_tbheroga", .ofList HeroGA, "ID", by decide, by decide, by decide⟩

def TbComboMontage : Table :=
  ⟨"skilldata_tbcombomontage", .ofList ComboMontage, "ID", by decide, by decide, by decide⟩

def TbGACombox : Table :=
  ⟨"skilldata_tbgacombox", .ofList GACombo, "ID", by decide, by decide, by decide⟩

def TbMontageAttackData : Table :=
  ⟨"skilldata_tbmontageattackdata", .ofList MontageAttackData, "ID", by decide, by decide, by decide⟩

def TbMontageCost : Table :=
  ⟨"skilldata_tbmontagecost", .ofList MontageCost, "ID", by decide, by decide, by decide⟩

def TbSkillLevel : Table :=
  ⟨"skilldata_tbskilllevel", .ofList SkillLevel, "ID", by decide, by decide, by decide⟩

def TbSkillLevelValue : Table :=
  ⟨"skilldata_tbskilllevelvalue", .ofList SkillLevelValue, "ID", by decide, by decide, by decide⟩

def TbSkillLevelValueGroup : Table :=
  ⟨"skilldata_tbskilllevelvaluegroup", .ofList SkillLevelValueGroup, "ID", by decide, by decide, by decide⟩

def TbBuff : Table := ⟨"buff_tbbuff", .ofList Buff, "CnfId", by decide, by decide, by decide⟩

def TbBuffEffect : Table :=
  ⟨"buff_tbbuffeffect", .ofList BuffEffect, "effectID", by decide, by decide, by decide⟩

def TbBuffCond : Table :=
  ⟨"buff_tbbuffcond", .ofList BuffCond, "CnfId", by decide, by decide, by decide⟩

def TbAbnormalNeedCond : Table :=
  ⟨"buff_tbabnormalneedcond", .ofList AbnormalNeedCond, "ID", by decide, by decide, by decide⟩

def TbInitCnf : Table := ⟨"sys_tbinitcnf", .ofList InitCnf, "id", by decide, by decide, by decide⟩

def TbInstruction : Table :=
  ⟨"sys_tbinstruction", .ofList Instruction, "id", by decide, by decide, by decide⟩

def TbCommonUnlock : Table :=
  ⟨"sys_tbcommonunlock", .ofList CommonUnlock, "id", by decide, by decide, by decide⟩

def TbGlobalParams : Table :=
  ⟨"sys_tbglobalparams", .ofList GlobalParams, "id", by decide, by decide, by decide⟩

def TbChapter : Table :=
  ⟨"quest_tbchapter", .ofList ChapterCnf, "Id", by decide, by decide, by decide⟩

def TbQuest : Table := ⟨"quest_tbquest", .ofList QuestCnf, "Id", by decide, by decide, by decide⟩

def TbQuestStep : Table :=
  ⟨"quest_tbqueststep", .ofList QuestStepCnf, "Id", by decide, by decide, by decide⟩

def TbQuestGlobalVar : Table :=
  ⟨"quest_tbquestglobalvar", .ofList QuestGlobalVar, "Id", by decide, by decide, by decide⟩

def TbWorldLevelExceed : Table :=
  ⟨"worldlevel_tbworldlevelexceed", .ofList WorldLevelExceed, "Id", by decide, by decide, by decide⟩

def TbWorldLevelTypeDesc : Table :=
  ⟨"worldlevel_tbworldleveltypedesc", .ofList WorldLevelTypeDesc, "TypeID", by decide, by decide, by decide⟩

/-- The tables in the order of `Tables::load`. -/
def tables : List Table :=
  [TbHeroData, TbHeroDataInfo, TbCampRelation, TbPropsGroup, TbScene, TbLevel, TbArea,
   TbSceneObject, TbVisualObject, TbSkillData, TbSkill, TbHeroGA, TbComboMontage, TbGACombox,
   TbMontageAttackData, TbMontageCost, TbSkillLevel, TbSkillLevelValue, TbSkillLevelValueGroup,
   TbBuff, TbBuffEffect, TbBuffCond, TbAbnormalNeedCond, TbInitCnf, TbInstruction, TbCommonUnlock,
   TbGlobalParams, TbChapter, TbQuest, TbQuestStep, TbQuestGlobalVar, TbWorldLevelExceed,
   TbWorldLevelTypeDesc]

/-- `Tables::load` with the loader that `Cfg::init` gives it. -/
def Tables.load (filePath : String) (files : Files) :
    (ts : List Table) → Reader ByteBuf (List ((t : Table) × t.Data))
  | [] => pure []
  | t :: ts => do
    ByteBuf.loadFromFile files (filePath ++ t.file ++ ".bytes")
    let tb ← Table.load (.new t)
    let rest ← Tables.load filePath files ts
    return ⟨t, tb⟩ :: rest

/-- `Cfg::init`: it returns true where this is done, and false where it is refused. -/
def init (filePath : String) (files : Files) :
    Reader.Outcome ByteBuf (List ((t : Table) × t.Data)) :=
  Tables.load filePath files tables .new

end Athena.Cfg
