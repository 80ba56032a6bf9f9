import Mutgos.Text.ExternalTextConverter
import Mutgos.Utilities.JsonUtilities

/-!
# External text as JSON

A line is saved as an array with a map for each element, and restored from it.  One
element that is not restored is enough for the whole line to be lost.

## Main results

* `restoreLine_saveLine_iff` — **which lines are restored.**
-/

namespace Mutgos.Text

open Json JsonNode List

/-! ### Keys -/

def textLineKey : ByteString := ascii "textLine"
def textTypeKey : ByteString := ascii "textType"
def plainTextKey : ByteString := ascii "plainText"
def redKey : ByteString := ascii "red"
def greenKey : ByteString := ascii "green"
def blueKey : ByteString := ascii "blue"
def colorStyleKey : ByteString := ascii "color"
def boldStyleKey : ByteString := ascii "bold"
def italicStyleKey : ByteString := ascii "italic"
def underlineStyleKey : ByteString := ascii "underline"
def inverseStyleKey : ByteString := ascii "inverse"
def urlTypeKey : ByteString := ascii "type"
def urlTextKey : ByteString := ascii "url"
def urlNameKey : ByteString := ascii "name"
def dbIdKey : ByteString := ascii "id"
def dbIdNameKey : ByteString := ascii "name"
def dbIdTypeKey : ByteString := ascii "type"
def siteIdKey : ByteString := ascii "siteId"
def entityIdKey : ByteString := ascii "entityId"

/-- `TEXT_TYPE_AS_STRING`, of the type that the subclass has. -/
def textTypeToString : ExternalText → ByteString
  | .plainText _ => ascii "plain"
  | .formattedText _ _ => ascii "formatted"
  | .url _ _ _ => ascii "url"
  | .id _ _ _ => ascii "id"

/-! ### Saving -/

/-- `Id::save` -/
def saveId (dbId : DbTypes.Id) (node : JsonNode) : Bool × JsonNode :=
  andThen (addStaticKeyUnsignedInt siteIdKey dbId.siteId node)
    (addStaticKeyVeryLongUnsignedInt entityIdKey dbId.entityId)

/-- `ExternalPlainText::save`, also of the subclass. -/
def savePlainText (textType text : ByteString) (node : JsonNode) : Bool × JsonNode :=
  let saved := addStaticKeyString textTypeKey textType node
  if saved.1 then addStaticKeyString plainTextKey text saved.2 else saved

/-- A flag that is written under a condition. -/
def saveFlag (written : Bool) (key : ByteString) (value : Bool) (saved : Bool × JsonNode) :
    Bool × JsonNode :=
  if written then andThen saved (addStaticKeyBool key value) else saved

/-- `ExternalFormattedText::save` -/
def saveFormattedText (text : ByteString) (style : TextStyle) (node : JsonNode) :
    Bool × JsonNode :=
  let saved := savePlainText (ascii "formatted") text node
  if saved.1 then
    let saved := addStaticKeyString colorStyleKey (colorToString style.color) saved.2
    let saved :=
      if style.color = .custom then
        andThen (andThen (andThen saved (addStaticKeySignedInt redKey style.red.toNat))
          (addStaticKeySignedInt greenKey style.green.toNat))
          (addStaticKeySignedInt blueKey style.blue.toNat)
      else saved
    let saved := saveFlag style.bold boldStyleKey style.bold saved
    let saved := saveFlag style.italic italicStyleKey style.italic saved
    let saved := saveFlag style.underline underlineStyleKey style.underline saved
    -- Inverse text is written if it is underlined.
    saveFlag style.underline inverseStyleKey style.inverse saved
  else saved

/-- `ExternalText::save` and what overrides it. -/
def save (element : ExternalText) (node : JsonNode) : Bool × JsonNode :=
  match element with
  | .plainText text => savePlainText (ascii "plain") text node
  | .formattedText text style => saveFormattedText text style node
  | .url urlType urlText urlName =>
    let saved := addStaticKeyString textTypeKey (ascii "url") node
    if saved.1 then
      andThen (andThen (andThen saved (addStaticKeyString urlTypeKey (urlTypeToString urlType)))
        (addStaticKeyString urlTextKey urlText)) (addStaticKeyString urlNameKey urlName)
    else saved
  | .id dbId dbIdName dbIdType =>
    let saved := addStaticKeyString textTypeKey (ascii "id") node
    if saved.1 then
      let idNode := saveId dbId (map [])
      if idNode.1 then
        andThen (andThen (andThen saved (addStaticKeyNode dbIdKey idNode.2))
          (addStaticKeyString dbIdNameKey dbIdName))
          (addStaticKeyString dbIdTypeKey (idTypeToString dbIdType))
      else (false, saved.2)
    else saved

/-- The loop of `save_line`. -/
def saveElements : ExternalTextLine → Bool × JsonNode → Bool × JsonNode
  | [], saved => saved
  | element :: line, saved =>
    let node := save element (map [])
    let added := arrayAddNode node.2 saved.2
    saveElements line (added.1 && (node.1 && saved.1), added.2)

def saveLine (line : ExternalTextLine) (node : JsonNode) : Bool × JsonNode :=
  let saved := saveElements line (true, array [])
  andThen (saved.1, node) (addStaticKeyNode textLineKey saved.2)

/-! ### Restoring -/

/-- `Id::restore` -/
def restoreId (node : JsonNode) : Bool × DbTypes.Id :=
  let siteId := getUnsignedInt siteIdKey node
  let entityId := getVeryLongUnsignedInt entityIdKey node
  (entityId.1 && siteId.1, ⟨siteId.2, entityId.2⟩)

/-- `ExternalFormattedText::restore` -/
def restoreFormattedText (node : JsonNode) : Bool × ExternalText :=
  let text := getString plainTextKey node
  if text.1 then
    let colorString := getString colorStyleKey node
    let color := stringToColor colorString.2
    if colorString.1 && color ≠ .endInvalid then
      let red := getUnsignedInt redKey node
      let green := getUnsignedInt greenKey node
      let blue := getUnsignedInt blueKey node
      let custom := color = .custom
      (!custom || (red.1 && green.1 && blue.1),
        .formattedText text.2
          { bold := (getBool boldStyleKey node).2
            italic := (getBool italicStyleKey node).2
            underline := (getBool underlineStyleKey node).2
            inverse := (getBool inverseStyleKey node).2
            color := color
            red := if custom then UInt8.ofNat red.2 else 0
            green := if custom then UInt8.ofNat green.2 else 0
            blue := if custom then UInt8.ofNat blue.2 else 0 })
    else (false, .formattedText text.2 ⟨false, false, false, false, .default, 0, 0, 0⟩)
  else (false, .formattedText text.2 ⟨false, false, false, false, .default, 0, 0, 0⟩)

/-- `ExternalUrlText::restore` -/
def restoreUrlText (node : JsonNode) : Bool × ExternalText :=
  let typeString := getString urlTypeKey node
  let urlType := if typeString.2 ≠ [] then stringToUrlType typeString.2 else .endInvalid
  let text := getString urlTextKey node
  let name := getString urlNameKey node
  (typeString.1 && (typeString.2 = [] || urlType ≠ .endInvalid) && text.1 && name.1,
    .url urlType text.2 name.2)

/-- `ExternalIdText::restore` -/
def restoreIdText (node : JsonNode) : Bool × ExternalText :=
  let restoredId :=
    match getNode dbIdKey node with
    | some idNode => restoreId idNode
    | none => (false, default)
  let name := getString dbIdNameKey node
  let typeString := getString dbIdTypeKey node
  let dbIdType := if typeString.2 ≠ [] then stringToIdType typeString.2 else .endInvalid
  (restoredId.1 && name.1 && typeString.1 && (typeString.2 = [] || dbIdType ≠ .endInvalid),
    .id restoredId.2 name.2 dbIdType)

/-- The element of the given type, restored. -/
def restore (typeString : ByteString) (node : JsonNode) : Option (Bool × ExternalText) :=
  if typeString = ascii "plain" then
    let text := getString plainTextKey node
    some (text.1, .plainText text.2)
  else if typeString = ascii "formatted" then some (restoreFormattedText node)
  else if typeString = ascii "url" then some (restoreUrlText node)
  else if typeString = ascii "id" then some (restoreIdText node)
  else none

/-- The loop of `restore_line`. -/
def restoreElements : List JsonNode → Bool × ExternalTextLine → Bool × ExternalTextLine
  | [], restored => restored
  | node :: nodes, (success, line) =>
    if success then
      let typeString := getString textTypeKey node
      match restore typeString.2 node with
      | none => restoreElements nodes (false, line)
      | some element => restoreElements nodes (element.1 && typeString.1, line ++ [element.2])
    else restoreElements nodes (false, line)

def restoreLine (node : JsonNode) : Bool × ExternalTextLine :=
  match getNode textLineKey node with
  | none => (false, [])
  | some (array nodes) =>
    let restored := restoreElements nodes (true, [])
    if restored.1 then restored else (false, [])
  | some _ => (true, [])

/-! ### What is saved -/

/-- The members of a map for a flag that may be written. -/
def flagMembers (written : Bool) (key : ByteString) (value : Bool) :
    List (ByteString × JsonNode) :=
  if written then [(key, .bool value)] else []

/-- What an element is saved as. -/
def members : ExternalText → List (ByteString × JsonNode)
  | .plainText text => [(textTypeKey, string (ascii "plain")), (plainTextKey, string text)]
  | .formattedText text style =>
    [(textTypeKey, string (ascii "formatted")), (plainTextKey, string text),
      (colorStyleKey, string (colorToString style.color))] ++
      (if style.color = .custom then [(redKey, number style.red.toNat),
        (greenKey, number style.green.toNat), (blueKey, number style.blue.toNat)] else []) ++
      flagMembers style.bold boldStyleKey style.bold ++
      flagMembers style.italic italicStyleKey style.italic ++
      flagMembers style.underline underlineStyleKey style.underline ++
      flagMembers style.underline inverseStyleKey style.inverse
  | .url urlType urlText urlName =>
    [(textTypeKey, string (ascii "url")), (urlTypeKey, string (urlTypeToString urlType)),
      (urlTextKey, string urlText), (urlNameKey, string urlName)]
  | .id dbId dbIdName dbIdType =>
    [(textTypeKey, string (ascii "id")),
      (dbIdKey, map [(siteIdKey, number dbId.siteId),
        (entityIdKey, number ((dbId.entityId : ℤ).bmod (2 ^ 64)))]),
      (dbIdNameKey, string dbIdName), (dbIdTypeKey, string (idTypeToString dbIdType))]

theorem saveFlag_map {written value : Bool} {key : ByteString} (hkey : key ≠ [])
    (ms : List (ByteString × JsonNode)) :
    saveFlag written key value (true, map ms) = (true, map (ms ++ flagMembers written key value)) := by
  cases written with
  | false => simp [saveFlag, flagMembers]
  | true =>
    rw [saveFlag, if_pos rfl, andThen, addStaticKeyBool, addKeyValue_map hkey rfl]
    rfl

theorem savePlainText_map (textType text : ByteString) :
    savePlainText textType text (map []) =
      (true, map [(textTypeKey, string textType), (plainTextKey, string text)]) := rfl

/-- **An element is saved in a new map.** -/
theorem save_map (element : ExternalText) : save element (map []) = (true, map (members element)) := by
  cases element with
  | plainText text => rfl
  | formattedText text style =>
    have hcolor : (if style.color = .custom then
        andThen (andThen (andThen (addStaticKeyString colorStyleKey (colorToString style.color)
              (map [(textTypeKey, string (ascii "formatted")), (plainTextKey, string text)]))
            (addStaticKeySignedInt redKey style.red.toNat))
          (addStaticKeySignedInt greenKey style.green.toNat))
          (addStaticKeySignedInt blueKey style.blue.toNat)
        else addStaticKeyString colorStyleKey (colorToString style.color)
          (map [(textTypeKey, string (ascii "formatted")), (plainTextKey, string text)])) =
      (true, map ([(textTypeKey, string (ascii "formatted")), (plainTextKey, string text),
        (colorStyleKey, string (colorToString style.color))] ++
        (if style.color = .custom then [(redKey, number style.red.toNat),
          (greenKey, number style.green.toNat), (blueKey, number style.blue.toNat)] else []))) := by
      split <;> rfl
    rw [save, saveFormattedText, savePlainText_map]
    simp only [if_true]
    rw [hcolor, saveFlag_map (by decide), saveFlag_map (by decide), saveFlag_map (by decide),
      saveFlag_map (by decide)]
    rfl
  | url urlType urlText urlName => rfl
  | id dbId dbIdName dbIdType => rfl

theorem saveElements_eq (line : ExternalTextLine) (nodes : List JsonNode) :
    saveElements line (true, array nodes) =
      (true, array (nodes ++ line.map fun element => map (members element))) := by
  induction line generalizing nodes with
  | nil => simp [saveElements]
  | cons element line ih =>
    rw [saveElements, save_map]
    refine (ih (nodes ++ [map (members element)])).trans ?_
    simp

/-- **A line is always saved.** -/
theorem saveLine_map (line : ExternalTextLine) (ms : List (ByteString × JsonNode)) :
    saveLine line (map ms) =
      (true, map (ms ++ [(textLineKey, array (line.map fun element => map (members element)))])) := by
  rw [saveLine, saveElements_eq, nil_append]
  rfl

/-! ### What is restored -/

/-- The numbers in an element are in the range of their types. -/
def InRange : ExternalText → Prop
  | .id dbId _ _ => dbId.siteId < 2 ^ 32 ∧ dbId.entityId < 2 ^ 64
  | _ => True

/-- **The elements that are restored as they were.** -/
def Restorable : ExternalText → Prop
  | .plainText _ => True
  | .formattedText _ style =>
    style.color ≠ .endInvalid ∧ (style.inverse = true → style.underline = true) ∧
      (style.color ≠ .custom → style.red = 0 ∧ style.green = 0 ∧ style.blue = 0)
  | .url urlType _ _ => urlType ≠ .endInvalid
  | .id dbId _ dbIdType => dbId.entityId < 2 ^ 63 ∧ dbIdType ≠ .endInvalid

theorem restoreUrlText_members (urlType : UrlType) (urlText urlName : ByteString) :
    restoreUrlText (map (members (.url urlType urlText urlName))) =
      (decide (urlType ≠ .endInvalid), .url urlType urlText urlName) := by
  cases urlType <;> rfl

/-- A number that is too large is negative, and the ID is that of no entity. -/
theorem restoreId_map {dbId : DbTypes.Id} (hsite : dbId.siteId < 2 ^ 32)
    (hentity : dbId.entityId < 2 ^ 64) :
    restoreId (map [(siteIdKey, number dbId.siteId),
        (entityIdKey, number ((dbId.entityId : ℤ).bmod (2 ^ 64)))]) =
      (decide (dbId.entityId < 2 ^ 63),
        ⟨dbId.siteId, if dbId.entityId < 2 ^ 63 then dbId.entityId else 0⟩) := by
  rw [restoreId, getUnsignedInt_of_findMember rfl hsite,
    getVeryLongUnsignedInt_of_findMember rfl hentity]
  by_cases hlt : dbId.entityId < 2 ^ 63
  · rw [if_pos hlt, if_pos hlt, decide_eq_true hlt]
    rfl
  · rw [if_neg hlt, if_neg hlt, decide_eq_false hlt]
    rfl

theorem idTypeToString_ne_nil (dbIdType : IdType) : idTypeToString dbIdType ≠ [] := by
  cases dbIdType <;> decide

theorem restoreIdText_members {dbId : DbTypes.Id} {dbIdName : ByteString} {dbIdType : IdType}
    (hrange : InRange (.id dbId dbIdName dbIdType)) :
    restoreIdText (map (members (.id dbId dbIdName dbIdType))) =
      (decide (dbId.entityId < 2 ^ 63) && decide (dbIdType ≠ .endInvalid),
        .id ⟨dbId.siteId, if dbId.entityId < 2 ^ 63 then dbId.entityId else 0⟩ dbIdName dbIdType) := by
  have hnode : getNode dbIdKey (map (members (.id dbId dbIdName dbIdType))) =
      some (map [(siteIdKey, number dbId.siteId),
        (entityIdKey, number ((dbId.entityId : ℤ).bmod (2 ^ 64)))]) := rfl
  have hname : getString dbIdNameKey (map (members (.id dbId dbIdName dbIdType))) =
      (true, dbIdName) := rfl
  have htype : getString dbIdTypeKey (map (members (.id dbId dbIdName dbIdType))) =
      (true, idTypeToString dbIdType) := rfl
  rw [restoreIdText, hnode, hname, htype]
  simp only [restoreId_map hrange.1 hrange.2]
  simp [idTypeToString_ne_nil]

/-- The style that is restored. -/
def restoredStyle (style : TextStyle) : TextStyle :=
  { style with
    inverse := style.underline && style.inverse
    red := if style.color = .custom then style.red else 0
    green := if style.color = .custom then style.green else 0
    blue := if style.color = .custom then style.blue else 0 }

theorem findMember_flagMembers (key key' : ByteString) (written value : Bool) :
    (map (flagMembers written key' value)).findMember key =
      if written = true ∧ key' = key then some (.bool value) else none := by
  cases written with
  | false => simp [flagMembers, findMember]
  | true => by_cases hkey : key' = key <;> simp [flagMembers, findMember, hkey]

/-- The flags that are found, and false for those that are not. -/
theorem getBool_members (text : ByteString) (style : TextStyle) :
    let node := map (members (.formattedText text style))
    (getBool boldStyleKey node).2 = style.bold ∧ (getBool italicStyleKey node).2 = style.italic ∧
      (getBool underlineStyleKey node).2 = style.underline ∧
      (getBool inverseStyleKey node).2 = (style.underline && style.inverse) := by
  have hskip : ∀ key ∈ [boldStyleKey, italicStyleKey, underlineStyleKey, inverseStyleKey],
      (map [(textTypeKey, string (ascii "formatted")), (plainTextKey, string text),
        (colorStyleKey, string (colorToString style.color))]).findMember key = none ∧
      (map (if style.color = .custom then [(redKey, number style.red.toNat),
        (greenKey, number style.green.toNat), (blueKey, number style.blue.toNat)]
        else [])).findMember key = none := by
    intro key hkey
    simp only [mem_cons, not_mem_nil, or_false] at hkey
    obtain rfl | rfl | rfl | rfl := hkey <;>
    · refine ⟨rfl, ?_⟩
      split <;> rfl
  have hbi : boldStyleKey ≠ italicStyleKey := by decide
  have hbu : boldStyleKey ≠ underlineStyleKey := by decide
  have hbv : boldStyleKey ≠ inverseStyleKey := by decide
  have hiu : italicStyleKey ≠ underlineStyleKey := by decide
  have hiv : italicStyleKey ≠ inverseStyleKey := by decide
  have huv : underlineStyleKey ≠ inverseStyleKey := by decide
  refine ⟨?_, ?_, ?_, ?_⟩
  · obtain ⟨hhead, hcolor⟩ := hskip boldStyleKey (by simp)
    simp only [getBool, members, findMember_append, hhead, hcolor, findMember_flagMembers]
    cases style.bold <;> simp [hbi.symm, hbu.symm, hbv.symm]
  · obtain ⟨hhead, hcolor⟩ := hskip italicStyleKey (by simp)
    simp only [getBool, members, findMember_append, hhead, hcolor, findMember_flagMembers]
    cases style.italic <;> simp [hbi, hiu.symm, hiv.symm]
  · obtain ⟨hhead, hcolor⟩ := hskip underlineStyleKey (by simp)
    simp only [getBool, members, findMember_append, hhead, hcolor, findMember_flagMembers]
    cases style.underline <;> simp [hbu, hiu, huv.symm]
  · obtain ⟨hhead, hcolor⟩ := hskip inverseStyleKey (by simp)
    simp only [getBool, members, findMember_append, hhead, hcolor, findMember_flagMembers]
    cases style.underline <;> simp [hbv, hiv, huv]

theorem restoreFormattedText_members (text : ByteString) (style : TextStyle) :
    restoreFormattedText (map (members (.formattedText text style))) =
      if style.color = .endInvalid then
        (false, .formattedText text ⟨false, false, false, false, .default, 0, 0, 0⟩)
      else (true, .formattedText text (restoredStyle style)) := by
  obtain ⟨hbold, hitalic, hunderline, hinverse⟩ := getBool_members text style
  have htext : getString plainTextKey (map (members (.formattedText text style))) =
      (true, text) := rfl
  have hcolor : getString colorStyleKey (map (members (.formattedText text style))) =
      (true, colorToString style.color) := rfl
  simp only [restoreFormattedText, htext, hcolor, hbold, hitalic, hunderline, hinverse,
    stringToColor_colorToString]
  by_cases hinvalid : style.color = .endInvalid
  · simp [hinvalid]
  · by_cases hcustom : style.color = .custom
    · have hbyte : ∀ key (c : UInt8),
          (map (members (.formattedText text style))).findMember key = some (number c.toNat) →
          getUnsignedInt key (map (members (.formattedText text style))) = (true, c.toNat) :=
        fun key c h => getUnsignedInt_of_findMember h (Nat.lt_trans c.toNat_lt (by decide))
      have hred := hbyte redKey style.red (by rw [members, if_pos hcustom]; rfl)
      have hgreen := hbyte greenKey style.green (by rw [members, if_pos hcustom]; rfl)
      have hblue := hbyte blueKey style.blue (by rw [members, if_pos hcustom]; rfl)
      simp [hcustom, hred, hgreen, hblue, restoredStyle]
    · simp [hinvalid, hcustom, restoredStyle]

theorem restoredStyle_eq_iff {style : TextStyle} : restoredStyle style = style ↔
    (style.inverse = true → style.underline = true) ∧
      (style.color ≠ .custom → style.red = 0 ∧ style.green = 0 ∧ style.blue = 0) := by
  obtain ⟨bold, italic, underline, inverse, color, red, green, blue⟩ := style
  by_cases hcustom : color = .custom
  · cases underline <;> simp [restoredStyle, hcustom]
  · cases underline <;> simp [restoredStyle, hcustom, eq_comm]

theorem restore_members {element : ExternalText} (hrange : InRange element) :
    ∃ success element', restore (textTypeToString element) (map (members element)) =
        some (success, element') ∧
      (success = true ∧ element' = element ↔ Restorable element) := by
  cases element with
  | plainText text => exact ⟨true, .plainText text, rfl, by simp [Restorable]⟩
  | formattedText text style =>
    have hrestored := restoreFormattedText_members text style
    by_cases hinvalid : style.color = .endInvalid
    · rw [if_pos hinvalid] at hrestored
      exact ⟨_, _, congrArg some hrestored, by simp [hinvalid, Restorable]⟩
    · rw [if_neg hinvalid] at hrestored
      exact ⟨_, _, congrArg some hrestored, by simp [hinvalid, Restorable, restoredStyle_eq_iff]⟩
  | url urlType urlText urlName =>
    refine ⟨_, _, congrArg some (restoreUrlText_members urlType urlText urlName), ?_⟩
    simp [Restorable]
  | id dbId dbIdName dbIdType =>
    refine ⟨_, _, congrArg some (restoreIdText_members hrange), ?_⟩
    simp only [Restorable, Bool.and_eq_true, decide_eq_true_eq]
    refine and_iff_left_of_imp fun hrestorable => ?_
    rw [if_pos hrestorable.1]

/-! ### Lines -/

theorem restoreElements_false (nodes : List JsonNode) (line : ExternalTextLine) :
    restoreElements nodes (false, line) = (false, line) := by
  induction nodes with
  | nil => rfl
  | cons node nodes ih => rw [restoreElements, if_neg (by simp), ih]

/-- What has been restored stays, until the line is cleared. -/
theorem exists_restoreElements (nodes : List JsonNode) (success : Bool) (line : ExternalTextLine) :
    ∃ more, (restoreElements nodes (success, line)).2 = line ++ more := by
  induction nodes generalizing success line with
  | nil => exact ⟨[], (append_nil line).symm⟩
  | cons node nodes ih =>
    rw [restoreElements]
    cases success with
    | false => exact ih false line
    | true =>
      simp only [if_true]
      split
      · exact ih false line
      · rename_i element _
        obtain ⟨more, hmore⟩ := ih (element.1 && (getString textTypeKey node).1) (line ++ [element.2])
        exact ⟨element.2 :: more, by rw [hmore, append_assoc]; rfl⟩

theorem getString_textTypeKey (element : ExternalText) :
    getString textTypeKey (map (members element)) = (true, textTypeToString element) := by
  cases element <;> rfl

/-- **The elements of a line are restored exactly when each of them is.** -/
theorem restoreElements_eq_iff {line : ExternalTextLine} (hrange : ∀ element ∈ line, InRange element)
    (output : ExternalTextLine) :
    restoreElements (line.map fun element => map (members element)) (true, output) =
      (true, output ++ line) ↔ ∀ element ∈ line, Restorable element := by
  induction line generalizing output with
  | nil => simp [restoreElements]
  | cons element line ih =>
    obtain ⟨hhere, hrest⟩ := forall_mem_cons.mp hrange
    obtain ⟨success, element', hrestore, hiff⟩ := restore_members hhere
    rw [map_cons, restoreElements, if_pos rfl, getString_textTypeKey]
    simp only [hrestore, Bool.and_true, forall_mem_cons, ← hiff]
    cases success with
    | false =>
      rw [restoreElements_false]
      simp
    | true =>
      by_cases heq : element' = element
      · subst heq
        have hnext := ih hrest (output ++ [element'])
        rw [append_assoc, singleton_append] at hnext
        rw [hnext]
        simp
      · refine iff_of_false ?_ (by simp [heq])
        intro h
        obtain ⟨more, hmore⟩ := exists_restoreElements
          (line.map fun element => map (members element)) true (output ++ [element'])
        rw [h] at hmore
        simp only [append_assoc, append_cancel_left_eq, singleton_append,
          List.cons.injEq] at hmore
        exact heq hmore.1.symm

/-- A line is restored if all its elements are. -/
theorem restoreLine_eq_iff {json : JsonNode} {nodes : List JsonNode} {line : ExternalTextLine}
    (h : getNode textLineKey json = some (array nodes)) :
    restoreLine json = (true, line) ↔ restoreElements nodes (true, []) = (true, line) := by
  rw [restoreLine, h]
  simp only []
  split
  · rfl
  · rename_i hfalse
    refine iff_of_false (by simp) ?_
    intro heq
    rw [heq] at hfalse
    exact hfalse rfl

/-- **A line is saved, and it is restored exactly when each of its elements can be.** -/
theorem restoreLine_saveLine_iff {line : ExternalTextLine}
    (hrange : ∀ element ∈ line, InRange element) {ms : List (ByteString × JsonNode)}
    (hms : ∀ member ∈ ms, member.1 ≠ textLineKey) :
    (saveLine line (map ms)).1 = true ∧
      (restoreLine (saveLine line (map ms)).2 = (true, line) ↔
        ∀ element ∈ line, Restorable element) := by
  rw [saveLine_map]
  refine ⟨rfl, ?_⟩
  have hnode : getNode textLineKey (map (ms ++
      [(textLineKey, array (line.map fun element => map (members element)))])) =
      some (array (line.map fun element => map (members element))) := by
    have hnone : (map ms).findMember textLineKey = none := by
      rw [findMember, List.find?_eq_none.mpr (by simpa using hms)]
      rfl
    rw [getNode, findMember_append, hnone, Option.none_or]
    simp [findMember]
  rw [restoreLine_eq_iff hnode]
  exact restoreElements_eq_iff hrange []

/-- A line that is restored. -/
theorem restoreLine_saveLine_page :
    restoreLine (saveLine [.plainText (ascii "see "), .url .page (ascii "x.org") (ascii "here"),
      .id ⟨1, 7⟩ (ascii "Bob") .entity] (map [])).2 =
    (true, [.plainText (ascii "see "), .url .page (ascii "x.org") (ascii "here"),
      .id ⟨1, 7⟩ (ascii "Bob") .entity]) :=
  (restoreLine_saveLine_iff (by simp [InRange]) (by simp)).2.mpr (by simp [Restorable])

/-- A bold text without a colour has no valid one, and is lost on the way, as is inverse
text that is not underlined. -/
theorem restoreLine_saveLine_broken :
    toExternal (ascii "~`bold`hi") =
        [.formattedText (ascii "hi") ⟨true, false, false, false, .endInvalid, 0, 0, 0⟩] ∧
      restoreLine (saveLine (toExternal (ascii "~`bold`hi")) (map [])).2 = (false, []) ∧
      restoreLine (saveLine
        [.formattedText (ascii "hi") ⟨false, false, false, true, .red, 0, 0, 0⟩] (map [])).2 ≠
        (true, [.formattedText (ascii "hi") ⟨false, false, false, true, .red, 0, 0, 0⟩]) :=
  ⟨by decide +kernel, by decide +kernel, by decide +kernel⟩

end Mutgos.Text
