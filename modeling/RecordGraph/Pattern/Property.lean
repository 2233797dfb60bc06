import RecordGraph.Text.Pieces
import RecordGraph.Pattern.Charset

/-!
# Properties of characters

The names by which a pattern may call a Unicode property: a property that holds or not, a general
category, a script, or a property with a value. Only the names are known here, by which a pattern is
read or refused; tables of the properties are not held, and every property stands for the characters
of words.
-/

namespace RecordGraph.Property

/-! ### Names -/

/-- The names in lines of words. -/
def names (lines : List String) : List String :=
  lines.flatMap fun line => (Text.pieces (· == ' ') line.toList).map String.ofList

/-- Properties that hold of a character or not. -/
def binary : List String := names [
  "ahex asciihexdigit alpha alphabetic bidic bidicontrol bidim bidimirrored ci",
  "caseignorable cased cwcf changeswhencasefolded cwcm changeswhencasemapped cwl",
  "changeswhenlowercased cwt changeswhentitlecased cwu changeswhenuppercased dash dep",
  "deprecated di defaultignorablecodepoint dia diacritic ebase emojimodifierbase ecomp",
  "emojicomponent emod emojimodifier emoji epres emojipresentation ext extender extpict",
  "extendedpictographic grbase graphemebase grext graphemeextend grlink graphemelink hex",
  "hexdigit hyphen idc idcontinue idcompatmathcontinue idcompatmathstart ideo ideographic",
  "ids idstart idsb idsbinaryoperator idst idstrinaryoperator idsu idsunaryoperator joinc",
  "joincontrol loe logicalorderexception lower lowercase math mcm modifiercombiningmark",
  "nchar noncharactercodepoint oalpha otheralphabetic odi otherdefaultignorablecodepoint",
  "ogrext othergraphemeextend oidc otheridcontinue oids otheridstart olower otherlowercase",
  "omath othermath oupper otheruppercase patsyn patternsyntax patws patternwhitespace pcm",
  "prependedconcatenationmark qmark quotationmark radical ri regionalindicator sd",
  "softdotted sterm sentenceterminal term terminalpunctuation uideo unifiedideograph upper",
  "uppercase vs variationselector wspace whitespace space xidc xidcontinue xids xidstart"]

def categories : List String := names [
  "c other cc control cntrl cf format cn unassigned co privateuse l letter lc casedletter",
  "ll lowercaseletter lm modifierletter lo otherletter lt titlecaseletter lu",
  "uppercaseletter m mark combiningmark mc spacingmark me enclosingmark mn nonspacingmark n",
  "number nd decimalnumber digit nl letternumber no othernumber p punctuation punct pc",
  "connectorpunctuation pd dashpunctuation pe closepunctuation pf finalpunctuation pi",
  "initialpunctuation po otherpunctuation ps openpunctuation s symbol sc currencysymbol sk",
  "modifiersymbol sm mathsymbol so othersymbol z separator zl lineseparator zp",
  "paragraphseparator zs spaceseparator any assigned ascii"]

/-- Scripts of Unicode 16. -/
def scripts : List String := names [
  "adlm adlam aghb caucasianalbanian ahom arab arabic armi imperialaramaic armn armenian",
  "avst avestan bali balinese bamu bamum bass bassavah batk batak beng bengali bhks",
  "bhaiksuki bopo bopomofo brah brahmi brai braille bugi buginese buhd buhid cakm chakma",
  "cans canadianaboriginal cari carian cham cher cherokee chrs chorasmian copt coptic qaac",
  "cpmn cyprominoan cprt cypriot cyrl cyrillic deva devanagari diak divesakuru dogr dogra",
  "dsrt deseret dupl duployan egyp egyptianhieroglyphs elba elbasan elym elymaic ethi",
  "ethiopic gara garay geor georgian glag glagolitic gong gunjalagondi gonm masaramgondi",
  "goth gothic gran grantha grek greek gujr gujarati gukh gurungkhema guru gurmukhi hang",
  "hangul hani han hano hanunoo hatr hatran hebr hebrew hira hiragana hluw",
  "anatolianhieroglyphs hmng pahawhhmong hmnp nyiakengpuachuehmong hung oldhungarian ital",
  "olditalic java javanese kali kayahli kana katakana kawi khar kharoshthi khmr khmer khoj",
  "khojki kits khitansmallscript knda kannada krai kiratrai kthi kaithi lana taitham laoo",
  "lao latn latin lepc lepcha limb limbu lina lineara linb linearb lisu lyci lycian lydi",
  "lydian mahj mahajani maka makasar mand mandaic mani manichaean marc marchen medf",
  "medefaidrin mend mendekikakui merc meroiticcursive mero meroitichieroglyphs mlym",
  "malayalam modi mong mongolian mroo mro mtei meeteimayek mult multani mymr myanmar nagm",
  "nagmundari nand nandinagari narb oldnortharabian nbat nabataean newa nkoo nko nshu nushu",
  "ogam ogham olck olchiki onao olonal orkh oldturkic orya oriya osge osage osma osmanya",
  "ougr olduyghur palm palmyrene pauc paucinhau perm oldpermic phag phagspa phli",
  "inscriptionalpahlavi phlp psalterpahlavi phnx phoenician plrd miao prti",
  "inscriptionalparthian rjng rejang rohg hanifirohingya runr runic samr samaritan sarb",
  "oldsoutharabian saur saurashtra sgnw signwriting shaw shavian shrd sharada sidd siddham",
  "sind khudawadi sinh sinhala sogd sogdian sogo oldsogdian sora sorasompeng soyo soyombo",
  "sund sundanese sunu sunuwar sylo sylotinagri syrc syriac tagb tagbanwa takr takri tale",
  "taile talu newtailue taml tamil tang tangut tavt taiviet telu telugu tfng tifinagh tglg",
  "tagalog thaa thaana thai tibt tibetan tirh tirhuta tnsa tangsa todr todhri toto tutg",
  "tulutigalari ugar ugaritic vaii vai vith vithkuqi wara warangciti wcho wancho xpeo",
  "oldpersian xsux cuneiform yezi yezidi yiii yi zanb zanabazarsquare zinh inherited qaai",
  "zyyy common"]

/-- Classes of characters inside what a reader takes for one character. -/
def graphemeBreaks : List String := names [
  "cn control cr ex extend l lf lv lvt pp prepend ri regionalindicator sm spacingmark t v",
  "zwj"]

/-- Classes of characters inside words. -/
def wordBreaks : List String := names [
  "aletter le cr doublequote dq extend extendnumlet ex fo format hebrewletter hl ka",
  "katakana lf mb midletter midnum midnumlet ml mn newline nl nu numeric regionalindicator",
  "ri singlequote sq wsegspace zwj"]

/-- Classes of characters inside sentences. -/
def sentenceBreaks : List String := names [
  "at aterm cl close cr ex extend fo format le lf lo lower nu numeric oletter sc scontinue",
  "se sep sp st sterm up upper"]

/-- Editions of Unicode. -/
def ages : List String := names [
  "1.1 2.0 2.1 3.0 3.1 3.2 4.0 4.1 5.0 5.1 5.2 6.0 6.1 6.2 6.3 7.0 8.0 9.0 10.0 11.0 12.0",
  "12.1 13.0 14.0 15.0 15.1 16.0 v11 v20 v21 v30 v31 v32 v40 v41 v50 v51 v52 v60 v61 v62",
  "v63 v70 v80 v90 v100 v110 v120 v121 v130 v140 v150 v151 v160"]

/-! ### Look-up -/

/-- The spelling under which a name is looked up: small ASCII letters without blanks, underscores,
hyphens and a leading `is`; the name `isc` is a name of its own. -/
def normalized (name : List Char) : String :=
  let marked := (name.take 2).map Char.toLower == ['i', 's']
  let rest := if marked then name.drop 2 else name
  let kept := rest.filter fun c => c.toNat < 128 && c != ' ' && c != '_' && c != '-'
  let small := String.ofList (kept.map Char.toLower)
  if marked && small == "c" then "isc" else small

def values (name : String) : List String :=
  if ["gc", "generalcategory"].contains name then categories
  else if ["sc", "script", "scx", "scriptextensions"].contains name then scripts
  else if ["age"].contains name then ages
  else if ["gcb", "graphemeclusterbreak"].contains name then graphemeBreaks
  else if ["wb", "wordbreak"].contains name then wordBreaks
  else if ["sb", "sentencebreak"].contains name then sentenceBreaks
  else []

/-- Whether a name without a value calls a property. -/
def isSingle (name : List Char) : Bool :=
  let name := normalized name
  binary.contains name || categories.contains name || scripts.contains name

/-- Whether a name and a value call a property. -/
def isPair (name value : List Char) : Bool := (values (normalized name)).contains (normalized value)

/-- What stands before and after the first place at which a text has a mark. -/
def splitAt? (mark : List Char) : List Char → Option (List Char × List Char)
  | [] => none
  | c :: rest =>
    if mark.isPrefixOf (c :: rest) then some ([], (c :: rest).drop mark.length)
    else (splitAt? mark rest).map fun p => (c :: p.1, p.2)

/-- Whether what stands between braces calls a property. -/
def isKnown (s : List Char) : Bool :=
  match splitAt? ['!', '='] s <|> splitAt? [':'] s <|> splitAt? ['='] s with
  | some (name, value) => isPair name value
  | none => isSingle s

def charset : Charset := Charset.word true

end RecordGraph.Property
