/-
The names of properties. Each is in small letters, without spaces, underscores or
hyphens, and stands beside a shorter one if there is such.
-/
import LineCensus.Unicode.Age
import LineCensus.Unicode.Casing
import LineCensus.Unicode.Usage

namespace LineCensus.Unicode

/-- The property that characters have or have not. -/
def property? (name : String) : Option (Char → Bool) :=
  match name with
  | "alpha" | "alphabetic" => some isAlphabetic
  | "lower" | "lowercase" => some isLowercase
  | "upper" | "uppercase" => some isUppercase
  | "oalpha" | "otheralphabetic" => some fun c => isBetween otherAlphabetic c.toNat
  | "olower" | "otherlowercase" => some fun c => isBetween otherLowercase c.toNat
  | "oupper" | "otheruppercase" => some fun c => isBetween otherUppercase c.toNat
  | "cased" => some isCased
  | "ci" | "caseignorable" => some isCaseIgnorable
  | "cwl" | "changeswhenlowercased" => some isChangedByLowercase
  | "cwu" | "changeswhenuppercased" => some isChangedByUppercase
  | "cwt" | "changeswhentitlecased" => some isChangedByTitlecase
  | "cwcf" | "changeswhencasefolded" => some isChangedByFolding
  | "cwcm" | "changeswhencasemapped" => some isChangedByCase
  | "sd" | "softdotted" => some (inRanges softDotted)
  | "wspace" | "whitespace" | "space" => some Text.isBlank
  | "patws" | "patternwhitespace" => some (inRanges patternSpaces)
  | "patsyn" | "patternsyntax" => some (inRanges patternSyntax)
  | "hex" | "hexdigit" => some isHexDigit
  | "ahex" | "asciihexdigit" => some fun c => c.val < 0x80 && isHexDigit c
  | "ids" | "idstart" => some isIdentifierStart
  | "idc" | "idcontinue" => some isIdentifierContinue
  | "oids" | "otheridstart" => some (inRanges otherIdentifierStart)
  | "oidc" | "otheridcontinue" => some (inRanges otherIdentifierContinue)
  | "xids" | "xidstart" => some isStableStart
  | "xidc" | "xidcontinue" => some isStableContinue
  | "dash" => some fun c => isBetween dash c.toNat
  | "hyphen" => some (inRanges hyphens)
  | "qmark" | "quotationmark" => some (inRanges quotationMarks)
  | "term" | "terminalpunctuation" => some isTerminalPunctuation
  | "sterm" | "sentenceterminal" => some fun c => isBetween sentenceTerminal c.toNat
  | "math" => some isMath
  | "omath" | "othermath" => some fun c => isBetween otherMath c.toNat
  | "bidim" | "bidimirrored" => some fun c => isBetween mirrored c.toNat
  | "bidic" | "bidicontrol" => some (inRanges directionControls)
  | "joinc" | "joincontrol" => some (inRanges [(0x200C, 0x200D)])
  | "pcm" | "prependedconcatenationmark" => some (inRanges prependedConcatenationMarks)
  | "dia" | "diacritic" => some fun c => isBetween diacritic c.toNat
  | "ext" | "extender" => some (inRanges extenders)
  | "grbase" | "graphemebase" => some isGraphemeBase
  | "grext" | "graphemeextend" => some isGraphemeExtend
  | "ogrext" | "othergraphemeextend" => some (inRanges otherGraphemeExtend)
  | "grlink" | "graphemelink" => some fun c => isBetween graphemeLink c.toNat
  | "loe" | "logicalorderexception" => some (inRanges logicalOrderExceptions)
  | "ideo" | "ideographic" => some fun c => isBetween ideographic c.toNat
  | "uideo" | "unifiedideograph" => some fun c => isBetween unifiedIdeograph c.toNat
  | "radical" => some (inRanges radicals)
  | "idsb" | "idsbinaryoperator" => some (inRanges binaryDescriptions)
  | "idst" | "idstrinaryoperator" => some (inRanges ternaryDescriptions)
  | "emoji" => some fun c => isBetween emoji c.toNat
  | "epres" | "emojipresentation" => some fun c => isBetween emojiPresentation c.toNat
  | "extpict" | "extendedpictographic" => some fun c => isBetween pictographic c.toNat
  | "emod" | "emojimodifier" => some isEmojiModifier
  | "ebase" | "emojimodifierbase" => some (inRanges emojiBases)
  | "ecomp" | "emojicomponent" => some (inRanges emojiComponents)
  | "ri" | "regionalindicator" => some isRegionalIndicator
  | "vs" | "variationselector" => some isVariationSelector
  | "di" | "defaultignorablecodepoint" => some isDefaultIgnorable
  | "odi" | "otherdefaultignorablecodepoint" => some (inRanges otherDefaultIgnorable)
  | "dep" | "deprecated" => some (inRanges deprecated)
  | "nchar" | "noncharactercodepoint" => some isNoncharacter
  | _ => none

/-- The characters for which a property that has many values has this one. -/
def valued? (name value : String) : Option (Char → Bool) :=
  match name with
  | "age" => Age.upTo? value
  | "scx" | "scriptextensions" => (Script.named? value).map Script.usedIn
  | "gcb" | "graphemeclusterbreak" => clusterBreak? value
  | "wb" | "wordbreak" => wordBreak? value
  | "sb" | "sentencebreak" => sentenceBreak? value
  | _ => none

end LineCensus.Unicode
