import Athena.Native.CfgBean

/-!
# The beans of the game's configuration (`code-gen/cfg-gen/schema.h`, `schema_0.cpp`)

The members that each `deserialize` reads, in its order, and the `__ID__`s that each
`switch` over derived beans knows.
-/

namespace Athena.Cfg

open Luban

def HeroData : Bean :=
  [("Id", .long), ("CapsuleHalfHeight", .float), ("HeroAttributes", .hashMap .int .int),
   ("BreakWeaponCount", .int), ("ISDurability", .int)]

def HeroDataInfo : Bean := [("Attribute", .int), ("MinValue", .int), ("Sort", .int)]

def CampRelationData : Bean := [("Id", .int), ("campRelationList", .vector .int)]

def PropsGroup : Bean := [("Group", .int), ("PropIdList", .vector .int)]

def Vector3 : Bean := [("x", .int), ("y", .int), ("z", .int)]

def Scene : Bean :=
  [("id", .int), ("unlockId", .int), ("notTeleport", .bool), ("notAutoRest", .bool),
   ("type", .int), ("VisionLevel", .int), ("PlayerMode", .int), ("SpawnPointTag", .string),
   ("LevelSafeAreaLocation", .bean (.ofList Vector3)), ("BackgroundMusic", .string)]

def Level : Bean := [("Id", .int), ("LvlId", .int), ("SceneId", .int)]

def Area : Bean := [("Id", .int), ("AreaId", .int), ("LvlId", .int)]

def SceneObject : Bean := [("Id", .long), ("DropGroupId", .int)]

def VisualObject : Bean :=
  [("Type", .int), ("CanTeleport", .bool), ("CanRecover", .bool), ("CanReborn", .bool)]

def SkillData : Bean :=
  [("ID", .int), ("Name", .string), ("Icon", .string), ("Info", .string),
   ("StaminaCostValue", .int), ("StaminaCostRatioType", .int), ("StaminaCostRatio", .int),
   ("HpCostValue", .int), ("HpCostRatioType", .int), ("HpCostRatio", .int), ("VarTag", .string),
   ("VarCostValue", .int), ("VarCostRatioType", .int), ("VarCostRatio", .int),
   ("ShowType", .int), ("ShowResource", .string), ("Jump", .vector .int)]

def Skill : Bean :=
  [("ID", .int), ("HeroCnfId", .int), ("SkillType", .int), ("Combos", .vector .int),
   ("MontageActions", .vector .int), ("LevelLimit", .int)]

def HeroGA : Bean := [("ID", .int), ("GAIDs", .vector .int)]

def ComboMontage : Bean := [("ID", .int), ("ComboPath", .string), ("MontageIds", .vector .int)]

def GACombo : Bean :=
  [("ID", .int), ("ConfigID", .int), ("AbilityTags", .string), ("AbilityPath", .string),
   ("Combos", .vector .int), ("MontageActions", .vector .int), ("BuffIDs", .vector .int),
   ("SkillCostIDs", .vector .int)]

def MontageAttackData : Bean :=
  [("ID", .int), ("GATag", .string), ("AttackDataIds", .vector .int), ("BuffIDs", .vector .int),
   ("SkillCostIDs", .vector .int), ("BattleTimeDilationK", .vector .int)]

def MontageCost : Bean :=
  [("ID", .int), ("Formulation", .int), ("StaminaCostValue", .int),
   ("StaminaCostRatioType", .int), ("StaminaCostRatio", .int), ("HpCostValue", .int),
   ("HpCostRatioType", .int), ("HpCostRatio", .int), ("ExSkillEnergyCostValue", .int),
   ("ExSkillEnergyCostRatioType", .int), ("ExSkillEnergyCostRatio", .int), ("SPCostValue", .int),
   ("SPCostRatioType", .int), ("SPCostRatio", .int), ("SP1CostValue", .int),
   ("SP1CostRatioType", .int), ("SP1CostRatio", .int), ("abnormalCostType", .int),
   ("AbnormalCostProp", .vector .int), ("AbnormalCostValue", .int),
   ("AbnormalCostConversion", .vector .int), ("AbnormalCostConversionValue", .vector .int)]

def SkillPropOpt : Bean := [("skillProp", .int), ("opt", .int), ("count", .int)]

def SkillLevel : Bean :=
  [("ID", .int), ("SkillID", .int), ("Level", .int),
   ("UpSkillProps", .vector (.bean (.ofList SkillPropOpt))), ("PercentParameter", .vector .int),
   ("FixedParameter", .vector .int)]

def SkillLevelValue : Bean :=
  [("ID", .int), ("GroupID", .int), ("SkillValue", .string), ("SkillValueL10n", .string)]

def SkillLevelValueGroup : Bean := [("ID", .int)]

def TriggerEvent : Bean :=
  [("eventId", .int), ("condIds", .vector .int), ("effectIds", .vector .int)]

def TeamTriggerEvent : Bean := TriggerEvent ++ [("enterAvatartId", Ty.int)]

def NeverTriggerEvent : Bean := TriggerEvent ++ [("p", Ty.int)]

def CommonTriggerEvent : Bean := TriggerEvent ++ [("periodicTime", Ty.int)]

def PropChangeTriggerEvent : Bean := TriggerEvent ++
  [("prop", Ty.int), ("relopt", .int), ("value", .int)]

def StatusChangeTriggerEvent : Bean := TriggerEvent ++ [("status", Ty.int), ("isOut", .int)]

def HitedTriggerEvent : Bean := TriggerEvent ++ [("attackDataIds", Ty.vector .int)]

def HitedSkillTypeTriggerEvent : Bean := TriggerEvent ++ [("NeedSkillType", Ty.int)]

def DoDamageTriggerEvent : Bean := TriggerEvent ++ [("attackDataIds", Ty.vector .int)]

def DoCriticalDamageTriggerEvent : Bean := TriggerEvent ++ [("attackDataIds", Ty.vector .int)]

def BeHitedTriggerEvent : Bean := TriggerEvent ++ [("attackDataIds", Ty.vector .int)]

def BeDamageTriggerEvent : Bean := TriggerEvent ++ [("attackDataIds", Ty.vector .int)]

def OtherBuffMountedTriggerEvent : Bean := TriggerEvent ++ [("buffId", Ty.int)]

def MtgIdTriggerEvent : Bean := TriggerEvent ++ [("mgtIds", Ty.vector .int)]

def MontageEndTriggerEvent : Bean := TriggerEvent ++ [("mgtIds", Ty.vector .int)]

def MtgTagTriggerEvent : Bean := TriggerEvent ++ [("tag", Ty.string)]

def KilledMonsterEvent : Bean := TriggerEvent ++ [("MstType", Ty.int)]

def AroundHasMonsterBeWeak : Bean := TriggerEvent ++ [("MstType", Ty.int), ("Distance2D", .int)]

def ExecutionEnd : Bean := TriggerEvent ++ [("ExecuteType", Ty.int)]

def DoAbnormalClosing : Bean := TriggerEvent ++
  [("AbnormalLayerType", Ty.int), ("SourceAttackDataIDs", .vector .int)]

def DefaultTrueTrigger : Bean := TriggerEvent

def TriggerEvents : Beans := .ofList
  [(-1190840609, TeamTriggerEvent), (1863248974, NeverTriggerEvent),
   (1134080365, CommonTriggerEvent), (1947039861, PropChangeTriggerEvent),
   (-1511671996, StatusChangeTriggerEvent), (1383727156, HitedTriggerEvent),
   (2077591643, HitedSkillTypeTriggerEvent), (-1427423012, DoDamageTriggerEvent),
   (-1318178853, DoCriticalDamageTriggerEvent), (-436901327, BeHitedTriggerEvent),
   (-754990444, BeDamageTriggerEvent), (1414232567, OtherBuffMountedTriggerEvent),
   (1386834973, MtgIdTriggerEvent), (584624710, MontageEndTriggerEvent),
   (-1794239268, MtgTagTriggerEvent), (796997661, KilledMonsterEvent),
   (425415272, AroundHasMonsterBeWeak), (-1052876093, ExecutionEnd),
   (1043827490, DoAbnormalClosing), (-753825943, DefaultTrueTrigger)]

def Buff : Bean :=
  [("CnfId", .int), ("szName", .string), ("szNameL10n", .string), ("szDescription", .string),
   ("szDescriptionL10n", .string), ("Icon", .string), ("IsHide", .bool), ("IconClass", .bool),
   ("MountNeedTags", .vector .int), ("MountNeedNoTags", .vector .int), ("TotalTime", .int),
   ("TotalTimeType", .int), ("InitLayer", .int), ("AddLayerOnRepeatMounted", .int),
   ("MaxLayer", .int), ("IsShareOnMaxLayer", .bool), ("StartBuffOnMaxLayer", .vector .int),
   ("RemoveLayerOnTimeOut", .int), ("BackstageActive", .bool), ("IsDebuff", .bool),
   ("Class", .int), ("SubClass", .int), ("BuffTags", .vector .int), ("Level", .int),
   ("TriggerBuffNeedTags", .vector .int), ("TriggerBuffNeedNoTags", .vector .int),
   ("OnNaturalDeadAddBuffIds", .vector .int), ("OnUnnaturalDeathAddBuffIds", .vector .int),
   ("RemoveOnHolderDead", .bool), ("RemoveOnLeaveScene", .bool), ("RemoveOnOutOfCombat", .bool),
   ("OverlapByID", .int), ("OverlapByClass", .int), ("OverlapBySubClass", .int),
   ("EffectOnMount", .string), ("EffectOnStart", .string), ("EffectOnOverLap", .string),
   ("EffectOnDead", .string), ("EffectOnRemove", .string), ("StaminaAni", .string),
   ("Effect", .string), ("buffSpecialType", .int), ("BuffDeathCounter", .int),
   ("RemoveTriggerEvents", .vector (.abstract TriggerEvents)),
   ("TriggerEvents", .vector (.abstract TriggerEvents))]

def BuffEffectOpt : Bean := []

def ModAvatarProps : Bean := BuffEffectOpt ++
  [("avatarProp", Ty.int), ("OPT", .int), ("value", .int)]

def ModAvatarPropsForEver : Bean := BuffEffectOpt ++
  [("avatarProp", Ty.int), ("OPT", .int), ("value", .int)]

def ModPropMaxORMin : Bean := BuffEffectOpt ++
  [("PropID", Ty.int), ("RateORValue", .int), ("SwitchParam2", .int)]

def ChangeGameplayTag : Bean := BuffEffectOpt ++ [("GameplayTag", Ty.string)]

def ModAttackDataPropsBase : Bean := BuffEffectOpt ++
  [("skillProp", Ty.int), ("OPT", .int), ("value", .int)]

def ModAttackDataProps : Bean := ModAttackDataPropsBase ++ [("attatckDataIds", Ty.vector .int)]

def ModAttackDataPropsByTag : Bean := ModAttackDataPropsBase ++ [("tag", Ty.int)]

def BuffDoHurt : Bean := BuffEffectOpt ++
  [("DamageSource", Ty.int), ("DamageType", .int), ("HideDmgShow", .int)]

def ModAvatarStatus : Bean := BuffEffectOpt ++ [("status", Ty.int), ("opt", .int)]

def StartNewBuff : Bean := BuffEffectOpt ++ [("buffIds", Ty.vector .int), ("AddCount", .int)]

def RemoveBuff : Bean := BuffEffectOpt ++ [("byClass", Ty.int), ("values", .vector .int)]

def DoAttackData : Bean := BuffEffectOpt ++ [("attackDataId", Ty.int)]

def DoAbnormalDamageFormulation : Bean := BuffEffectOpt ++
  [("formulationId", Ty.int), ("damgeType", .int)]

def AddAvatarBuffTag : Bean := BuffEffectOpt ++ [("tags", Ty.vector .int)]

def RemoveAvatarBuffTag : Bean := BuffEffectOpt ++ [("tags", Ty.vector .int)]

def OderDelAbnormal : Bean := BuffEffectOpt ++ [("AbonormalID", Ty.vector .int)]

def PropResonance : Bean := BuffEffectOpt ++
  [("SelfProp", Ty.int), ("SourceConfigID", .int), ("SourceProp", .int), ("StepValue", .int),
   ("ResonanceMax", .int)]

def BuffEffectOpts : Beans := .ofList
  [(-701644971, ModAvatarProps), (104268914, ModAvatarPropsForEver),
   (-1145568496, ModPropMaxORMin), (-1278941788, ChangeGameplayTag),
   (1837076284, ModAttackDataProps), (-1726026265, ModAttackDataPropsByTag),
   (-1343119987, BuffDoHurt), (-188836179, ModAvatarStatus), (1874555761, StartNewBuff),
   (-1203456233, RemoveBuff), (-1673905891, DoAttackData),
   (-411091784, DoAbnormalDamageFormulation), (-1300575315, AddAvatarBuffTag),
   (879818858, RemoveAvatarBuffTag), (1494450865, OderDelAbnormal), (1714246667, PropResonance)]

def BuffEffect : Bean :=
  [("effectID", .int), ("EffectTarget", .int), ("buffEffectOpt", .abstract BuffEffectOpts),
   ("CoolDown", .int)]

def EffectCondition : Bean := []

def BuffTagsNeed : Bean := EffectCondition ++ [("buffTags", Ty.vector .int)]

def BuffTagsNoNeed : Bean := EffectCondition ++ [("buffTags", Ty.vector .int)]

def InMontage : Bean := EffectCondition ++ [("montageIDs", Ty.vector .int)]

def MonsterTypeNeed : Bean := EffectCondition ++ [("AnyMstType", Ty.vector .int)]

def AbnormalNeed : Bean := EffectCondition ++ [("abnormalCheckIDs", Ty.vector .int)]

def ElementTypeNeed : Bean := EffectCondition ++ [("ElementTypeIDs", Ty.vector .int)]

def SermonTypeNeed : Bean := EffectCondition ++ [("SermonTypeIDs", Ty.vector .int)]

def HeroHasAllTalentNeed : Bean := EffectCondition ++
  [("TalentIDs", Ty.vector .int), ("bIsNoneHasAllTalent", .int)]

def EffectConditions : Beans := .ofList
  [(1211466210, BuffTagsNeed), (291444803, BuffTagsNoNeed), (-1758266350, InMontage),
   (-1579202358, MonsterTypeNeed), (-1463002850, AbnormalNeed), (-1570972180, ElementTypeNeed),
   (-1545784868, SermonTypeNeed), (686822371, HeroHasAllTalentNeed)]

def BuffCond : Bean :=
  [("CnfId", .int), ("CondType", .int), ("Condtion", .abstract EffectConditions)]

def AbnormalNeedCond : Bean :=
  [("ID", .int), ("LogicGateType", .int), ("IceAbnormalLayer", .int),
   ("FireAbnormalLayer", .int), ("WindAbnormalLayer", .int), ("ThunderAbnormalLayer", .int),
   ("LightAbnormalLayer", .int), ("DarkAbnormalLayer", .int)]

def SysInitParams : Bean := [("id", .int), ("count", .int)]

def InitCnf : Bean :=
  [("id", .int), ("values", .vector (.bean (.ofList SysInitParams))), ("label", .bool),
   ("longnum", .long)]

def UnLockCondBean : Bean := [("cndId", .int), ("value", .long)]

def Instruction : Bean :=
  [("id", .int), ("Type", .int), ("GameTag", .string), ("Sort", .int), ("instructionType", .int),
   ("Show", .bool), ("OnlyBattleHUDShow", .bool), ("Time", .int), ("UnLockOptType", .int),
   ("unlockCnds", .vector (.bean (.ofList UnLockCondBean))), ("picRes1", .string),
   ("subName1", .string), ("subName1L10n", .string), ("desc1", .string), ("desc1L10n", .string),
   ("picRes2", .string), ("subName2", .string), ("subName2L10n", .string), ("desc2", .string),
   ("desc2L10n", .string), ("picRes3", .string), ("subName3", .string),
   ("subName3L10n", .string), ("desc3", .string), ("desc3L10n", .string), ("picRes4", .string),
   ("subName4", .string), ("desc4", .string), ("picRes5", .string), ("subName5", .string),
   ("desc5", .string), ("picRes6", .string), ("subName6", .string), ("desc6", .string),
   ("picRes7", .string), ("subName7", .string), ("desc7", .string), ("picRes8", .string),
   ("subName8", .string), ("desc8", .string), ("funDesc", .string), ("funDescL10n", .string)]

def CommonUnlock : Bean :=
  [("id", .int), ("UnLockOptType", .int),
   ("unlockCnds", .vector (.bean (.ofList UnLockCondBean)))]

def GlobalParams : Bean :=
  [("id", .int), ("INTARRAY", .vector .int), ("vector3", .bean (.ofList Vector3)), ("INT", .int),
   ("STRING", .string)]

def ChapterCnf : Bean :=
  [("Id", .long), ("Hidden", .bool), ("BeginQuestId", .int), ("EndQuestId", .int)]

def QuestCondition : Bean := []

def QuestAcceptCondition : Bean := QuestCondition ++
  [("Type", Ty.int), ("Param", .vector .long), ("StringParam", .vector .string)]

def QuestLock : Bean := QuestCondition ++
  [("Type", Ty.int), ("Param", .vector .long), ("StringParam", .vector .string)]

def QuestAcceptMode : Bean := QuestCondition ++
  [("Type", Ty.int), ("Param", .vector .long), ("StringParam", .vector .string)]

def QuestExec : Bean :=
  [("Type", .int), ("Param", .vector .long), ("StringParam", .vector .string)]

def QuestContent : Bean :=
  [("Type", .int), ("Param", .vector .long), ("StringParam", .vector .string)]

def QuestStepCnf : Bean :=
  [("QuestId", .long), ("Id", .long), ("IsFlowStep", .bool), ("bPreCheck", .bool),
   ("Tag", .string), ("PrevStepIds", .vector .long), ("Order", .int),
   ("AcceptMode", .vector (.bean (.ofList QuestAcceptMode))), ("Version", .long),
   ("SceneId", .int), ("BoShow", .bool), ("Hidden", .bool), ("FinishParent", .bool),
   ("FailParent", .bool), ("IsRewind", .bool), ("IsClientExec", .bool),
   ("BeginExec", .vector (.bean (.ofList QuestExec))), ("FinishCondComb", .int),
   ("FinishCond", .vector (.bean (.ofList QuestContent))),
   ("ProgressFinishExec", .vector (.bean (.ofList QuestExec))),
   ("FinishExec", .vector (.bean (.ofList QuestExec))), ("FailCondComb", .int),
   ("FailCond", .vector (.bean (.ofList QuestContent))),
   ("FailExec", .vector (.bean (.ofList QuestExec))), ("UnitRootId", .long),
   ("IsRollBackNode", .bool), ("ResetLandmarkId", .long)]

def QuestCnf : Bean :=
  [("Id", .long), ("isDisable", .bool), ("Type", .int), ("SceneId", .int),
   ("AcceptCondComb", .int), ("AcceptCond", .vector (.bean (.ofList QuestAcceptCondition))),
   ("UnlockCondComb", .int), ("UnlockCond", .vector (.bean (.ofList QuestLock))),
   ("FinishMethod", .int), ("Cancelable", .bool), ("Repeatable", .bool), ("GameFlowLoop", .bool),
   ("MinRewindQuest", .long), ("ChildQuestMap", .hashMap .long (.bean (.ofList QuestStepCnf))),
   ("ChildQuestList", .vector (.bean (.ofList QuestStepCnf))), ("RewardIdList", .int),
   ("ChapterId", .int)]

def QuestGlobalVar : Bean := [("Id", .int), ("DefaultValue", .int)]

def WorldLevelExceed : Bean :=
  [("Id", .int), ("Type", .int), ("FinishQuestId", .long), ("NodeId", .int),
   ("RewardDrop", .int), ("Time", .int)]

def WorldLevelTypeDesc : Bean := [("TypeID", .int)]

end Athena.Cfg
