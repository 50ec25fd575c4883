/-
The script of every character, as the Unicode standard assigns it.

The table is a text like that of the categories, with a letter of its own for
each script. A character that is used in several scripts is counted with none of
them there.
-/
import LineCensus.Unicode.Runs

namespace LineCensus.Unicode.Script

/-- The letter of each script in the table, with the names of the script: in small
letters, without spaces, underscores or hyphens. -/
def names : List (Char × List String) :=
  [('A', ["adlm", "adlam"]),
    ('B', ["ahom"]),
    ('C', ["hluw", "anatolianhieroglyphs"]),
    ('D', ["arab", "arabic"]),
    ('E', ["armn", "armenian"]),
    ('F', ["avst", "avestan"]),
    ('G', ["bali", "balinese"]),
    ('H', ["bamu", "bamum"]),
    ('I', ["bass", "bassavah"]),
    ('J', ["batk", "batak"]),
    ('K', ["beng", "bengali"]),
    ('L', ["bhks", "bhaiksuki"]),
    ('M', ["bopo", "bopomofo"]),
    ('N', ["brah", "brahmi"]),
    ('O', ["brai", "braille"]),
    ('P', ["bugi", "buginese"]),
    ('Q', ["buhd", "buhid"]),
    ('R', ["cans", "canadianaboriginal"]),
    ('S', ["cari", "carian"]),
    ('T', ["aghb", "caucasianalbanian"]),
    ('U', ["cakm", "chakma"]),
    ('V', ["cham"]),
    ('W', ["cher", "cherokee"]),
    ('X', ["chrs", "chorasmian"]),
    ('Y', ["zyyy", "common"]),
    ('Z', ["copt", "coptic", "qaac"]),
    ('a', ["xsux", "cuneiform"]),
    ('b', ["cprt", "cypriot"]),
    ('c', ["cpmn", "cyprominoan"]),
    ('d', ["cyrl", "cyrillic"]),
    ('e', ["dsrt", "deseret"]),
    ('f', ["deva", "devanagari"]),
    ('g', ["diak", "divesakuru"]),
    ('h', ["dogr", "dogra"]),
    ('i', ["dupl", "duployan"]),
    ('j', ["egyp", "egyptianhieroglyphs"]),
    ('k', ["elba", "elbasan"]),
    ('l', ["elym", "elymaic"]),
    ('m', ["ethi", "ethiopic"]),
    ('n', ["geor", "georgian"]),
    ('o', ["glag", "glagolitic"]),
    ('p', ["goth", "gothic"]),
    ('q', ["gran", "grantha"]),
    ('r', ["grek", "greek"]),
    ('s', ["gujr", "gujarati"]),
    ('t', ["gong", "gunjalagondi"]),
    ('u', ["guru", "gurmukhi"]),
    ('v', ["hani", "han"]),
    ('w', ["hang", "hangul"]),
    ('x', ["rohg", "hanifirohingya"]),
    ('y', ["hano", "hanunoo"]),
    ('z', ["hatr", "hatran"]),
    ('α', ["hebr", "hebrew"]),
    ('β', ["hira", "hiragana"]),
    ('γ', ["armi", "imperialaramaic"]),
    ('δ', ["zinh", "inherited", "qaai"]),
    ('ε', ["phli", "inscriptionalpahlavi"]),
    ('ζ', ["prti", "inscriptionalparthian"]),
    ('η', ["java", "javanese"]),
    ('θ', ["kthi", "kaithi"]),
    ('ι', ["knda", "kannada"]),
    ('κ', ["kana", "katakana"]),
    ('λ', ["kawi"]),
    ('μ', ["kali", "kayahli"]),
    ('ν', ["khar", "kharoshthi"]),
    ('ξ', ["kits", "khitansmallscript"]),
    ('ο', ["khmr", "khmer"]),
    ('π', ["khoj", "khojki"]),
    ('ρ', ["sind", "khudawadi"]),
    ('а', ["laoo", "lao"]),
    ('б', ["latn", "latin"]),
    ('в', ["lepc", "lepcha"]),
    ('г', ["limb", "limbu"]),
    ('д', ["lina", "lineara"]),
    ('е', ["linb", "linearb"]),
    ('ж', ["lisu"]),
    ('з', ["lyci", "lycian"]),
    ('и', ["lydi", "lydian"]),
    ('й', ["mahj", "mahajani"]),
    ('к', ["maka", "makasar"]),
    ('л', ["mlym", "malayalam"]),
    ('м', ["mand", "mandaic"]),
    ('н', ["mani", "manichaean"]),
    ('о', ["marc", "marchen"]),
    ('п', ["gonm", "masaramgondi"]),
    ('р', ["medf", "medefaidrin"]),
    ('с', ["mtei", "meeteimayek"]),
    ('т', ["mend", "mendekikakui"]),
    ('у', ["merc", "meroiticcursive"]),
    ('ф', ["mero", "meroitichieroglyphs"]),
    ('х', ["plrd", "miao"]),
    ('ц', ["modi"]),
    ('ч', ["mong", "mongolian"]),
    ('ш', ["mroo", "mro"]),
    ('щ', ["mult", "multani"]),
    ('ъ', ["mymr", "myanmar"]),
    ('ы', ["nbat", "nabataean"]),
    ('ь', ["nagm", "nagmundari"]),
    ('э', ["nand", "nandinagari"]),
    ('ю', ["talu", "newtailue"]),
    ('я', ["newa"]),
    ('А', ["nkoo", "nko"]),
    ('Б', ["nshu", "nushu"]),
    ('В', ["hmnp", "nyiakengpuachuehmong"]),
    ('Г', ["ogam", "ogham"]),
    ('Д', ["olck", "olchiki"]),
    ('Е', ["hung", "oldhungarian"]),
    ('Ж', ["ital", "olditalic"]),
    ('З', ["narb", "oldnortharabian"]),
    ('И', ["perm", "oldpermic"]),
    ('Й', ["xpeo", "oldpersian"]),
    ('К', ["sogo", "oldsogdian"]),
    ('Л', ["sarb", "oldsoutharabian"]),
    ('М', ["orkh", "oldturkic"]),
    ('Н', ["ougr", "olduyghur"]),
    ('О', ["orya", "oriya"]),
    ('П', ["osge", "osage"]),
    ('Р', ["osma", "osmanya"]),
    ('С', ["hmng", "pahawhhmong"]),
    ('Т', ["palm", "palmyrene"]),
    ('У', ["pauc", "paucinhau"]),
    ('Ф', ["phag", "phagspa"]),
    ('Х', ["phnx", "phoenician"]),
    ('Ц', ["phlp", "psalterpahlavi"]),
    ('Ч', ["rjng", "rejang"]),
    ('Ш', ["runr", "runic"]),
    ('Щ', ["samr", "samaritan"]),
    ('Ъ', ["saur", "saurashtra"]),
    ('Ы', ["shrd", "sharada"]),
    ('Ь', ["shaw", "shavian"]),
    ('Э', ["sidd", "siddham"]),
    ('Ю', ["sgnw", "signwriting"]),
    ('Я', ["sinh", "sinhala"]),
    ('ա', ["sogd", "sogdian"]),
    ('բ', ["sora", "sorasompeng"]),
    ('գ', ["soyo", "soyombo"]),
    ('դ', ["sund", "sundanese"]),
    ('ե', ["sylo", "sylotinagri"]),
    ('զ', ["syrc", "syriac"]),
    ('է', ["tglg", "tagalog"]),
    ('ը', ["tagb", "tagbanwa"]),
    ('թ', ["tale", "taile"]),
    ('ժ', ["lana", "taitham"]),
    ('ի', ["tavt", "taiviet"]),
    ('լ', ["takr", "takri"]),
    ('խ', ["taml", "tamil"]),
    ('ծ', ["tnsa", "tangsa"]),
    ('կ', ["tang", "tangut"]),
    ('հ', ["telu", "telugu"]),
    ('ձ', ["thaa", "thaana"]),
    ('ղ', ["thai"]),
    ('ճ', ["tibt", "tibetan"]),
    ('մ', ["tfng", "tifinagh"]),
    ('յ', ["tirh", "tirhuta"]),
    ('ն', ["toto"]),
    ('շ', ["ugar", "ugaritic"]),
    ('ո', ["zzzz", "unknown"]),
    ('չ', ["vaii", "vai"]),
    ('պ', ["vith", "vithkuqi"]),
    ('ջ', ["wcho", "wancho"]),
    ('ռ', ["wara", "warangciti"]),
    ('ս', ["yezi", "yezidi"]),
    ('վ', ["yiii", "yi"]),
    ('տ', ["zanb", "zanabazarsquare"])]

/-- The runs. -/
def table : String :=
  String.join [
    "Y65б26Y6б26Y47бY15бY5б23Yб31Yб449Y39б5Y5M2Y20δ112r4Yr3ո2r4Yrո4rYrYr3ոrոr20ոr63",
    "Z14r16d133δ2d169ոE38ո2E50ո2E3ոα55ո8α27ո4α6ո11D5YD6YD14YD3YD32YD10δ11D26δD108YD34",
    "զ14ոզ60ո2զ3D48ձ50ո14А59ո2А3Щ46ո2Щ15ոм28ո2мոզ11ո5D31ոD2ո6D74YD29f81δ4f15Y2f26K4",
    "ոK8ո2K2ո2K22ոK7ոKո3K4ո2K9ո2K2ո2K4ո8Kո4K2ոK5ո2K25ո2u3ոu6ո4u2ո2u22ոu7ոu2ոu2ոu2ո2",
    "uոu5ո4u2ո2u3ո3uո7u4ոuո7u17ո10s3ոs9ոs3ոs22ոs7ոs2ոs5ո2s10ոs3ոs3ո2sո15s4ո2s12ո7s7",
    "ոО3ոО8ո2О2ո2О22ոО7ոО2ոО5ո2О9ո2О2ո2О3ո7О3ո4О2ոО5ո2О18ո10խ2ոխ6ո3խ3ոխ4ո3խ2ոխոխ2ո3խ2",
    "ո3խ3ո3խ12ո4խ5ո3խ3ոխ4ո2խո6խո14խ21ո5հ13ոհ3ոհ23ոհ16ո2հ9ոհ3ոհ4ո7հ2ոհ3ո2հո2հ4ո2հ10ո7",
    "հ9ι13ոι3ոι23ոι10ոι5ո2ι9ոι3ոι4ո7ι2ո6ι2ոι4ո2ι10ոι3ո12л13ոл3ոл51ոл3ոл6ո4л16ո2л26ոЯ3",
    "ոЯ18ո3Я24ոЯ9ոЯո2Я7ո3Яո4Я6ոЯոЯ8ո6Я10ո2Я3ո12ղ58ո4Yղ28ո37а2ոаոа5ոа24ոаոа23ո2а5ոаոа7",
    "ոа10ո2а4ո32ճ72ոճ36ո4ճ39ոճ36ոճ15ոճ7Y4ճ2ո37ъ160n38ոnո5nո2n43Yn4w256m73ոm4ո2m7ոmոm4",
    "ո2m41ոm4ո2m33ոm4ո2m7ոmոm4ո2m15ոm57ոm4ո2m67ո2m32ո3m26ո6W86ո2W6ո2R640Г29ո3Ш75Y3Ш11",
    "ո7է22ո9էy21Y2ո9Q20ո12ը13ոը3ոը2ո12ο94ո2ο10ո6ο10ո6ч2Y2чYч20ո6ч89ո7ч43ո5R70ո10г31",
    "ոг12ո4г12ո4гո3г12թ30ո2թ5ո11ю44ո4ю26ո6ю11ո3ю2ο32P28ո2P2ժ63ոժ29ո2ժ11ո6ժ10ո6ժ14ո2",
    "δ31ո49G77ո3G47ոդ64J52ո8J4в56ո3в15ո3в3Д48d9ո7n43ո2n3դ8ո8δ3Yδ13Yδ7Y4δY6δY3δ2Yո5б38",
    "r5dб49r5б4r5б13dб70rδ64б256r22ո2r6ո2r38ո2r6ո2r8ոrոrոrոr31ո2r53ոr15ոr14ո2r6ոr19ո2",
    "r3ոr9ոY12δ2Y87ոY11бո2Y11бY15ոб13ո3Y33ո15δ33ո15Y38rY3б2Y6бY27бY17б41Y3ո4Y663ո25",
    "Y11ո21Y928O256Y628ո2Y32ոY105o96б32Z116ո5Z7n38ոnո5nո2մ56ո7մ2ո14մm23ո9m7ոm7ոm7ոm7",
    "ոm7ոm7ոm7ոm7ոd32Y94ո34v26ոv89ո12v214ո26Y12ո4Y5vYvY25v9δ4w2Y8v4Y4ոβ86ո2δ2Y2β3Yκ90",
    "Y2κ3ո5M43ոw94ոY16M32Y36ո12κ16w31ոY64w31Y81κ47Yκ88Y168v6592Y64v20992վ1165ո3վ55ո9",
    "ж48չ300ո20d96H88ո8Y34б102Y3б64ո5б2ոбոб5ո24б14ե45ո3Y10ո6Ф56ո8Ъ70ո8Ъ12ո6f32μ46",
    "YμЧ36ո11Чw29ո3η78ոYη10ո4η2ъ31ոV55ո9V14ո2V10ո2V4ъ32ի67ո24ի5с23ո10m6ո2m6ո2m6ո9m7",
    "ոm7ոб43Yб9rб4Y2ո4W80с46ո2с10ո6w11172ո12w23ո4w49ո8452v366ո2v106ո38б7ո12E5ո5α26ոα5",
    "ոαոα2ոα2ոα10D115ո16D363Y2D80ո2D54ո7Dո32D16δ16Y10ո6δ14d2Y35ոY19ոY4ո4D5ոD135ո2",
    "YոY32б26Y6б26Y11κ10Yκ45Y2w31ո3w6ո2w6ո2w6ո2w3ո3Y7ոY7ո10Y5ո2е12ոе26ոе19ոе2ոе15ո2",
    "е14ո34е123ո5Y3ո4Y45ո3Y9r79ոY13ո3rո47Y45δո130з29ո3S49ո15δY27ո4Ж36ո9Ж3p27ո5И43ո5",
    "շ30ոշЙ36ո4Й14ո42e80Ь48Р30ո2Р10ո6П36ո4П36ո4k40ո8T52ո11Tպ11ոպ15ոպ7ոպ2ոպ11ոպ15ոպ7",
    "ոպ2ո67д311ո9д22ո10д8ո24б6ոб42ոб9ո69b6ո2bոb44ոb2ո3bո2bγ22ոγ9Т32ы31ո8ы9ո48z19ոz2ո5",
    "z5Х28ո3Хи26ո5иո64ф32у24ո4у20ո2у46ν4ոν2ո5ν8ոν3ոν29ո2ν3ո4ν10ո7ν9ո7Л32З32ո32н39ո4",
    "н12ո9F54ո3F7ζ22ո2ζ8ε19ո5ε8Ц18ո7Ц4ո12Ц7ո80М73ո55Е51ո13Е51ո7Е6x40ո8x10ո294D31ոս42",
    "ոս3ո2ս2ո75D3К40ո8ա42ո22Н26ո38X28ո20l23ո9N78ո4N36ո9Nθ67ո10θո2բ25ո7բ10ո6U53ոU18ո8",
    "й39ո9Ы96ոЯ20ո11π18ոπ47ո62щ7ոщոщ4ոщ15ոщ11ո6ρ59ո5ρ10ո6q4ոq8ո2q2ո2q22ոq7ոq2ոq5ոδq9",
    "ո2q2ո2q3ո2qո6qո5q7ո2q7ո3q5ո139я92ոя5ո30յ72ո8յ10ո166Э54ո2Э38ո34ц69ո11ц10ո6ч13ո19",
    "լ58ո6լ10ո54B27ո2B15ո4B23ո185h60ո100ռ83ո12ռg7ո2gո2g8ոg2ոg30ոg2ո2g12ո9g10ո70э8ո2",
    "э46ո2э11ո27տ72ո8գ83ո13R16У57ո7f10ո246L9ոL45ոL14ո10L29ո3о32ո2о22ոо14ո73п7ոп2ոп44",
    "ո3пոп2ոп9ո8п10ո6t6ոt2ոt37ոt2ոt6ո7t10ո310к25ո7λ17ոλ41ո3λ28ո86жո15խ50ո13խa922ո102",
    "a111ոa5ո11a196ո2636c99ո13j1110ո4010C583ո8633H569ո7ш31ոш10ո4ш2ծ79ոծ10ո6I30ո2I6ո10",
    "С70ո10С10ոС7ոС21ո5С19ո688р91ո101х75ո4х57ո7х17ո64կБv2ξո11v2ո14կ6136ո8կ768ξ470ո42",
    "կ9ո8935κ4ոκ7ոκ2ոκβ287κ3ո15βո29β3ո2κո14κ4ո8Б396ո2308i107ո5i13ո3i9ո7i10ո2i4Y4ո4700",
    "δ46ո2δ23ո9Y116ո60Y246ո10Y39ո2Y62δ3Y17δ8Y2δ7Y30δ4Y61ո21r70ո122Y20ո12Y20ո12Y87ո9",
    "Y25ո135Y85ոY71ոY2ո2Yո2Y2ո2Y4ոY12ոYոY7ոY65ոY4ո2Y8ոY7ոY28ոY4ոY5ոYո3Y7ոY340ո2Y292ո2",
    "Y50Ю652ո15Ю5ոЮ15ո1104б31ո6б6ո213o7ոo17ո2o7ոo2ոo5ո5d62ո33dո112В45ո3В14ո2В10ո4В2",
    "ո320ն31ո17ջ58ո5ջո464ь42ո742m7ոm4ոm2ոm15ոт197ո2т16ո41A76ո4A10ո4A2ո785Y68ո76Y61",
    "ո194D4ոD27ոD2ոDո2DոD10ոD4ոDոDո6Dո4DոDոDոD3ոD2ոDո2DոDոDոDոDոD2ոDո2D4ոD7ոD4ոD4",
    "ոDոD10ոD17ո5D3ոD5ոD17ո52D2ո270Y44ո4Y100ո12Y15ո2Y15ոY15ոY37ո10Y174ո56Y26βY2ո13Y44",
    "ո4Y9ո7Y2ո14Y6ո154Y984ո4Y17ո3Y13ո3Y119ո4Y95ո6Y12ո4Yո15Y12ո4Y56ո8Y10ո6Y40ո8Y30ո2Y2",
    "ո78Y340ո12Y14ո2Y13ո3Y9ո7Y46ոY7ո8Y14ո4Y9ո7Y9ո7Y147ոY55ո37Y10ո1030v42720ո32v4154ո6",
    "v222ո2v5762ո14v7473ո3103v542ո1506v4939ո5v4192ո711761Yո30Y96ո128δ240ո196112"]

/-- The first character of each run, with the letter of its script. -/
def runs : Array (Nat × Char) := decodeRuns table

/-- The letter of the script that a name stands for. -/
def named? (name : String) : Option Char :=
  (names.find? fun (_, ns) => ns.contains name).map (·.1)

/-- The letter of the script of a character. -/
def of (c : Char) : Char := runAt runs c.toNat

/-- Whether a character is of the script that a name stands for. -/
def has (name : String) (c : Char) : Bool := named? name == some (of c)

/-- The characters whose script does not tell all scripts they are used in: ranges of them, each
with its first, its last and the letters of the scripts. -/
def shared : List (Nat × Nat × String) :=
  [(0x342, 0x342, "r"), (0x345, 0x345, "r"), (0x363, 0x36F, "б"), (0x483, 0x483, "dИ"),
    (0x484, 0x484, "do"), (0x485, 0x486, "dб"), (0x487, 0x487, "do"), (0x60C, 0x60C, "DxАզձս"),
    (0x61B, 0x61B, "DxАզձս"), (0x61C, 0x61C, "Dզձ"), (0x61F, 0x61F, "ADxАզձս"),
    (0x640, 0x640, "ADxмнНЦազ"), (0x64B, 0x655, "Dզ"), (0x660, 0x669, "Dձս"), (0x670, 0x670, "Dզ"),
    (0x6D4, 0x6D4, "Dx"), (0x951, 0x951, "KfqsuιблОЫխհյ"), (0x952, 0x952, "KfqsuιблОխհյ"),
    (0x964, 0x964, "KfhqstuιρйлпэОЯելխհյ"), (0x965, 0x965, "KfhqstuιρгйлпэОЯելխհյ"),
    (0x966, 0x96F, "fhθй"), (0x9E6, 0x9EF, "KUե"), (0xA66, 0xA6F, "uщ"), (0xAE6, 0xAEF, "sπ"),
    (0xBE6, 0xBF3, "qխ"), (0xCE6, 0xCEF, "ιэ"), (0x1040, 0x1049, "Uъթ"), (0x10FB, 0x10FB, "nб"),
    (0x1735, 0x1736, "Qyէը"), (0x1802, 0x1803, "чФ"), (0x1805, 0x1805, "чФ"),
    (0x1CD0, 0x1CD0, "Kfqι"), (0x1CD1, 0x1CD1, "f"), (0x1CD2, 0x1CD2, "Kfqι"),
    (0x1CD3, 0x1CD3, "fq"), (0x1CD4, 0x1CD4, "f"), (0x1CD5, 0x1CD6, "Kf"), (0x1CD7, 0x1CD7, "fЫ"),
    (0x1CD8, 0x1CD8, "Kf"), (0x1CD9, 0x1CD9, "fЫ"), (0x1CDA, 0x1CDA, "fιлОխհ"),
    (0x1CDB, 0x1CDB, "f"), (0x1CDC, 0x1CDD, "fЫ"), (0x1CDE, 0x1CDF, "f"), (0x1CE0, 0x1CE0, "fЫ"),
    (0x1CE1, 0x1CE1, "Kf"), (0x1CE2, 0x1CE8, "f"), (0x1CE9, 0x1CE9, "fэ"), (0x1CEA, 0x1CEA, "Kf"),
    (0x1CEB, 0x1CEC, "f"), (0x1CED, 0x1CED, "Kf"), (0x1CEE, 0x1CF1, "f"),
    (0x1CF2, 0x1CF2, "KfqιэОհյ"), (0x1CF3, 0x1CF3, "fq"), (0x1CF4, 0x1CF4, "fqι"),
    (0x1CF5, 0x1CF6, "Kf"), (0x1CF7, 0x1CF7, "K"), (0x1CF8, 0x1CF9, "fq"), (0x1CFA, 0x1CFA, "э"),
    (0x1DC0, 0x1DC1, "r"), (0x1DF8, 0x1DF8, "dզ"), (0x1DFA, 0x1DFA, "զ"), (0x202F, 0x202F, "бч"),
    (0x20F0, 0x20F0, "fqб"), (0x2E43, 0x2E43, "do"), (0x3001, 0x3002, "Mvwβκվ"),
    (0x3003, 0x3003, "Mvwβκ"), (0x3006, 0x3006, "v"), (0x3008, 0x3011, "Mvwβκվ"),
    (0x3013, 0x3013, "Mvwβκ"), (0x3014, 0x301B, "Mvwβκվ"), (0x301C, 0x301F, "Mvwβκ"),
    (0x302A, 0x302D, "Mv"), (0x3030, 0x3030, "Mvwβκ"), (0x3031, 0x3035, "βκ"),
    (0x3037, 0x3037, "Mvwβκ"), (0x303C, 0x303D, "vβκ"), (0x303E, 0x303F, "v"),
    (0x3099, 0x309C, "βκ"), (0x30A0, 0x30A0, "βκ"), (0x30FB, 0x30FB, "Mvwβκվ"),
    (0x30FC, 0x30FC, "βκ"), (0x3190, 0x319F, "v"), (0x31C0, 0x31E3, "v"), (0x3220, 0x3247, "v"),
    (0x3280, 0x32B0, "v"), (0x32C0, 0x32CB, "v"), (0x32FF, 0x32FF, "v"), (0x3358, 0x3370, "v"),
    (0x337B, 0x337F, "v"), (0x33E0, 0x33FE, "v"), (0xA66F, 0xA66F, "do"), (0xA700, 0xA707, "vб"),
    (0xA830, 0xA832, "fhsuθιπρйлцэլյ"), (0xA833, 0xA835, "fhsuθιπρйцэլյ"),
    (0xA836, 0xA839, "fhsuθπρйцլյ"), (0xA8F1, 0xA8F1, "Kf"), (0xA8F3, 0xA8F3, "fխ"),
    (0xA92E, 0xA92E, "μбъ"), (0xA9CF, 0xA9CF, "Pη"), (0xFD3E, 0xFD3F, "DА"), (0xFDF2, 0xFDF2, "Dձ"),
    (0xFDFD, 0xFDFD, "Dձ"), (0xFE45, 0xFE46, "Mvwβκ"), (0xFF61, 0xFF65, "Mvwβκվ"),
    (0xFF70, 0xFF70, "βκ"), (0xFF9E, 0xFF9F, "βκ"), (0x10100, 0x10101, "bcе"),
    (0x10102, 0x10102, "bе"), (0x10107, 0x10133, "bде"), (0x10137, 0x1013F, "bе"),
    (0x102E0, 0x102FB, "DZ"), (0x10AF2, 0x10AF2, "нН"), (0x11301, 0x11301, "qխ"),
    (0x11303, 0x11303, "qխ"), (0x1133B, 0x1133C, "qխ"), (0x11FD0, 0x11FD1, "qխ"),
    (0x11FD3, 0x11FD3, "qխ"), (0x1BCA0, 0x1BCA3, "i"), (0x1D360, 0x1D371, "v"),
    (0x1F250, 0x1F251, "v")]

/-- Whether a character is used in the script of a letter. -/
def usedIn (letter c : Char) : Bool :=
  match shared.find? fun (first, last, _) => first ≤ c.toNat && c.toNat ≤ last with
  | some (_, _, letters) => letters.toList.contains letter
  | none => of c == letter

end LineCensus.Unicode.Script
