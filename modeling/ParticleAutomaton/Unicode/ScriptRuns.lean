namespace ParticleAutomaton.Unicode

/-- The names of the scripts, in small letters. -/
def scriptNames : List String := [
  "unknown zzzz",
  "adlm adlam",
  "ahom",
  "hluw anatolianhieroglyphs",
  "arab arabic",
  "armn armenian",
  "avst avestan",
  "bali balinese",
  "bamu bamum",
  "bass bassavah",
  "batk batak",
  "beng bengali",
  "bhks bhaiksuki",
  "bopo bopomofo",
  "brah brahmi",
  "brai braille",
  "bugi buginese",
  "buhd buhid",
  "cans canadianaboriginal",
  "cari carian",
  "aghb caucasianalbanian",
  "cakm chakma",
  "cham",
  "cher cherokee",
  "chrs chorasmian",
  "zyyy common",
  "copt coptic qaac",
  "xsux cuneiform",
  "cprt cypriot",
  "cpmn cyprominoan",
  "cyrl cyrillic",
  "dsrt deseret",
  "deva devanagari",
  "diak divesakuru",
  "dogr dogra",
  "dupl duployan",
  "egyp egyptianhieroglyphs",
  "elba elbasan",
  "elym elymaic",
  "ethi ethiopic",
  "gara garay",
  "geor georgian",
  "glag glagolitic",
  "goth gothic",
  "gran grantha",
  "grek greek",
  "gujr gujarati",
  "gong gunjalagondi",
  "guru gurmukhi",
  "gukh gurungkhema",
  "hani han",
  "hang hangul",
  "rohg hanifirohingya",
  "hano hanunoo",
  "hatr hatran",
  "hebr hebrew",
  "hira hiragana",
  "armi imperialaramaic",
  "zinh inherited qaai",
  "phli inscriptionalpahlavi",
  "prti inscriptionalparthian",
  "java javanese",
  "kthi kaithi",
  "knda kannada",
  "kana katakana",
  "kawi",
  "kali kayahli",
  "khar kharoshthi",
  "kits khitansmallscript",
  "khmr khmer",
  "khoj khojki",
  "sind khudawadi",
  "krai kiratrai",
  "laoo lao",
  "latn latin",
  "lepc lepcha",
  "limb limbu",
  "lina lineara",
  "linb linearb",
  "lisu",
  "lyci lycian",
  "lydi lydian",
  "mahj mahajani",
  "maka makasar",
  "mlym malayalam",
  "mand mandaic",
  "mani manichaean",
  "marc marchen",
  "gonm masaramgondi",
  "medf medefaidrin",
  "mtei meeteimayek",
  "mend mendekikakui",
  "merc meroiticcursive",
  "mero meroitichieroglyphs",
  "plrd miao",
  "modi",
  "mong mongolian",
  "mroo mro",
  "mult multani",
  "mymr myanmar",
  "nbat nabataean",
  "nagm nagmundari",
  "nand nandinagari",
  "newa",
  "talu newtailue",
  "nkoo nko",
  "nshu nushu",
  "hmnp nyiakengpuachuehmong",
  "ogam ogham",
  "olck olchiki",
  "hung oldhungarian",
  "ital olditalic",
  "narb oldnortharabian",
  "perm oldpermic",
  "xpeo oldpersian",
  "sogo oldsogdian",
  "sarb oldsoutharabian",
  "orkh oldturkic",
  "ougr olduyghur",
  "onao olonal",
  "orya oriya",
  "osge osage",
  "osma osmanya",
  "hmng pahawhhmong",
  "palm palmyrene",
  "pauc paucinhau",
  "phag phagspa",
  "phnx phoenician",
  "phlp psalterpahlavi",
  "rjng rejang",
  "runr runic",
  "samr samaritan",
  "saur saurashtra",
  "shrd sharada",
  "shaw shavian",
  "sidd siddham",
  "sgnw signwriting",
  "sinh sinhala",
  "sogd sogdian",
  "sora sorasompeng",
  "soyo soyombo",
  "sund sundanese",
  "sunu sunuwar",
  "sylo sylotinagri",
  "syrc syriac",
  "tglg tagalog",
  "tagb tagbanwa",
  "tale taile",
  "lana taitham",
  "tavt taiviet",
  "takr takri",
  "taml tamil",
  "tnsa tangsa",
  "tang tangut",
  "telu telugu",
  "thaa thaana",
  "thai",
  "tibt tibetan",
  "tfng tifinagh",
  "tirh tirhuta",
  "todr todhri",
  "toto",
  "tutg tulutigalari",
  "ugar ugaritic",
  "vaii vai",
  "vith vithkuqi",
  "wcho wancho",
  "wara warangciti",
  "yezi yezidi",
  "yiii yi",
  "zanb zanabazarsquare"]

/-- The scripts of all code points in order, each by its place among the names, with the length of
its run. -/
def scriptRuns : List String := [
  "25:65 74:26 25:6 74:26 25:47 74:1 25:15 74:1 25:5 74:23 25:1 74:31 25:1 74:449 25:39 74:5 25:5",
  "13:2 25:20 58:112 45:4 25:1 45:3 0:2 45:4 25:1 45:1 0:4 45:1 25:1 45:1 25:1 45:3 0:1 45:1 0:1",
  "45:20 0:1 45:63 26:14 45:16 30:133 58:2 30:169 0:1 5:38 0:2 5:50 0:2 5:3 0:1 55:55 0:8 55:27",
  "0:4 55:6 0:11 4:5 25:1 4:6 25:1 4:14 25:1 4:3 25:1 4:32 25:1 4:10 58:11 4:26 58:1 4:108 25:1",
  "4:34 144:14 0:1 144:60 0:2 144:3 4:48 155:50 0:14 105:59 0:2 105:3 131:46 0:2 131:15 0:1 85:28",
  "0:2 85:1 0:1 144:11 0:5 4:31 0:1 4:2 0:5 4:75 25:1 4:29 32:81 58:4 32:15 25:2 32:26 11:4 0:1",
  "11:8 0:2 11:2 0:2 11:22 0:1 11:7 0:1 11:1 0:3 11:4 0:2 11:9 0:2 11:2 0:2 11:4 0:8 11:1 0:4",
  "11:2 0:1 11:5 0:2 11:25 0:2 48:3 0:1 48:6 0:4 48:2 0:2 48:22 0:1 48:7 0:1 48:2 0:1 48:2 0:1",
  "48:2 0:2 48:1 0:1 48:5 0:4 48:2 0:2 48:3 0:3 48:1 0:7 48:4 0:1 48:1 0:7 48:17 0:10 46:3 0:1",
  "46:9 0:1 46:3 0:1 46:22 0:1 46:7 0:1 46:2 0:1 46:5 0:2 46:10 0:1 46:3 0:1 46:3 0:2 46:1 0:15",
  "46:4 0:2 46:12 0:7 46:7 0:1 120:3 0:1 120:8 0:2 120:2 0:2 120:22 0:1 120:7 0:1 120:2 0:1 120:5",
  "0:2 120:9 0:2 120:2 0:2 120:3 0:7 120:3 0:4 120:2 0:1 120:5 0:2 120:18 0:10 151:2 0:1 151:6",
  "0:3 151:3 0:1 151:4 0:3 151:2 0:1 151:1 0:1 151:2 0:3 151:2 0:3 151:3 0:3 151:12 0:4 151:5 0:3",
  "151:3 0:1 151:4 0:2 151:1 0:6 151:1 0:14 151:21 0:5 154:13 0:1 154:3 0:1 154:23 0:1 154:16 0:2",
  "154:9 0:1 154:3 0:1 154:4 0:7 154:2 0:1 154:3 0:2 154:1 0:2 154:4 0:2 154:10 0:7 154:9 63:13",
  "0:1 63:3 0:1 63:23 0:1 63:10 0:1 63:5 0:2 63:9 0:1 63:3 0:1 63:4 0:7 63:2 0:6 63:2 0:1 63:4",
  "0:2 63:10 0:1 63:3 0:12 84:13 0:1 84:3 0:1 84:51 0:1 84:3 0:1 84:6 0:4 84:16 0:2 84:26 0:1",
  "137:3 0:1 137:18 0:3 137:24 0:1 137:9 0:1 137:1 0:2 137:7 0:3 137:1 0:4 137:6 0:1 137:1 0:1",
  "137:8 0:6 137:10 0:2 137:3 0:12 156:58 0:4 25:1 156:28 0:37 73:2 0:1 73:1 0:1 73:5 0:1 73:24",
  "0:1 73:1 0:1 73:23 0:2 73:5 0:1 73:1 0:1 73:7 0:1 73:10 0:2 73:4 0:32 157:72 0:1 157:36 0:4",
  "157:39 0:1 157:36 0:1 157:15 0:1 157:7 25:4 157:2 0:37 99:160 41:38 0:1 41:1 0:5 41:1 0:2",
  "41:43 25:1 41:4 51:256 39:73 0:1 39:4 0:2 39:7 0:1 39:1 0:1 39:4 0:2 39:41 0:1 39:4 0:2 39:33",
  "0:1 39:4 0:2 39:7 0:1 39:1 0:1 39:4 0:2 39:15 0:1 39:57 0:1 39:4 0:2 39:67 0:2 39:32 0:3 39:26",
  "0:6 23:86 0:2 23:6 0:2 18:640 108:29 0:3 130:75 25:3 130:11 0:7 145:22 0:9 145:1 53:21 25:2",
  "0:9 17:20 0:12 146:13 0:1 146:3 0:1 146:2 0:12 69:94 0:2 69:10 0:6 69:10 0:6 96:2 25:2 96:1",
  "25:1 96:20 0:6 96:89 0:7 96:43 0:5 18:70 0:10 76:31 0:1 76:12 0:4 76:12 0:4 76:1 0:3 76:12",
  "147:30 0:2 147:5 0:11 104:44 0:4 104:26 0:6 104:11 0:3 104:2 69:32 16:28 0:2 16:2 148:63 0:1",
  "148:29 0:2 148:11 0:6 148:10 0:6 148:14 0:2 58:31 0:49 7:77 0:1 7:50 141:64 10:52 0:8 10:4",
  "75:56 0:3 75:15 0:3 75:3 109:48 30:11 0:5 41:43 0:2 41:3 141:8 0:8 58:3 25:1 58:13 25:1 58:7",
  "25:4 58:1 25:6 58:1 25:3 58:2 25:1 0:5 74:38 45:5 30:1 74:49 45:5 74:4 45:5 74:13 30:1 74:70",
  "45:1 58:64 74:256 45:22 0:2 45:6 0:2 45:38 0:2 45:6 0:2 45:8 0:1 45:1 0:1 45:1 0:1 45:1 0:1",
  "45:31 0:2 45:53 0:1 45:15 0:1 45:14 0:2 45:6 0:1 45:19 0:2 45:3 0:1 45:9 0:1 25:12 58:2 25:87",
  "0:1 25:11 74:1 0:2 25:11 74:1 25:15 0:1 74:13 0:3 25:33 0:15 58:33 0:15 25:38 45:1 25:3 74:2",
  "25:6 74:1 25:27 74:1 25:17 74:41 25:3 0:4 25:666 0:22 25:11 0:21 25:928 15:256 25:628 0:2",
  "25:32 0:1 25:105 42:96 74:32 26:116 0:5 26:7 41:38 0:1 41:1 0:5 41:1 0:2 158:56 0:7 158:2 0:14",
  "158:1 39:23 0:9 39:7 0:1 39:7 0:1 39:7 0:1 39:7 0:1 39:7 0:1 39:7 0:1 39:7 0:1 39:7 0:1 30:32",
  "25:94 0:34 50:26 0:1 50:89 0:12 50:214 0:26 25:21 50:1 25:1 50:1 25:25 50:9 58:4 51:2 25:8",
  "50:4 25:4 0:1 56:86 0:2 58:2 25:2 56:3 25:1 64:90 25:2 64:3 0:5 13:43 0:1 51:94 0:1 25:16",
  "13:32 25:38 0:9 25:1 64:16 51:31 0:1 25:64 51:31 25:81 64:47 25:1 64:88 25:168 50:6592 25:64",
  "50:20992 169:1165 0:3 169:55 0:9 79:48 164:300 0:20 30:96 8:88 0:8 25:34 74:102 25:3 74:67 0:2",
  "74:2 0:1 74:1 0:1 74:8 0:21 74:14 143:45 0:3 25:10 0:6 126:56 0:8 132:70 0:8 132:12 0:6 32:32",
  "66:46 25:1 66:1 129:36 0:11 129:1 51:29 0:3 61:78 0:1 25:1 61:10 0:4 61:2 99:31 0:1 22:55 0:9",
  "22:14 0:2 22:10 0:2 22:4 99:32 149:67 0:24 149:5 90:23 0:10 39:6 0:2 39:6 0:2 39:6 0:9 39:7",
  "0:1 39:7 0:1 74:43 25:1 74:9 45:1 74:4 25:2 0:4 23:80 90:46 0:2 90:10 0:6 51:11172 0:12 51:23",
  "0:4 51:49 0:8452 50:366 0:2 50:106 0:38 74:7 0:12 5:5 0:5 55:26 0:1 55:5 0:1 55:1 0:1 55:2 0:1",
  "55:2 0:1 55:10 4:115 0:16 4:363 25:2 4:80 0:2 4:54 0:7 4:1 0:32 4:16 58:16 25:10 0:6 58:14",
  "30:2 25:35 0:1 25:19 0:1 25:4 0:4 4:5 0:1 4:135 0:2 25:1 0:1 25:32 74:26 25:6 74:26 25:11",
  "64:10 25:1 64:45 25:2 51:31 0:3 51:6 0:2 51:6 0:2 51:6 0:2 51:3 0:3 25:7 0:1 25:7 0:10 25:5",
  "0:2 78:12 0:1 78:26 0:1 78:19 0:1 78:2 0:1 78:15 0:2 78:14 0:34 78:123 0:5 25:3 0:4 25:45 0:3",
  "25:9 45:79 0:1 25:13 0:3 45:1 0:47 25:45 58:1 0:130 80:29 0:3 19:49 0:15 58:1 25:27 0:4 111:36",
  "0:9 111:3 43:27 0:5 113:43 0:5 163:30 0:1 163:1 114:36 0:4 114:14 0:42 31:80 134:48 122:30 0:2",
  "122:10 0:6 121:36 0:4 121:36 0:4 37:40 0:8 20:52 0:11 20:1 165:11 0:1 165:15 0:1 165:7 0:1",
  "165:2 0:1 165:11 0:1 165:15 0:1 165:7 0:1 165:2 0:3 160:52 0:12 77:311 0:9 77:22 0:10 77:8",
  "0:24 74:6 0:1 74:42 0:1 74:9 0:69 28:6 0:2 28:1 0:1 28:44 0:1 28:2 0:3 28:1 0:2 28:1 57:22 0:1",
  "57:9 124:32 100:31 0:8 100:9 0:48 54:19 0:1 54:2 0:5 54:5 127:28 0:3 127:1 81:26 0:5 81:1 0:64",
  "93:32 92:24 0:4 92:20 0:2 92:46 67:4 0:1 67:2 0:5 67:8 0:1 67:3 0:1 67:29 0:2 67:3 0:4 67:10",
  "0:7 67:9 0:7 116:32 112:32 0:32 86:39 0:4 86:12 0:9 6:54 0:3 6:7 60:22 0:2 60:8 59:19 0:5 59:8",
  "128:18 0:7 128:4 0:12 128:7 0:80 117:73 0:55 110:51 0:13 110:51 0:7 110:6 52:40 0:8 52:10 0:6",
  "40:38 0:3 40:29 0:8 40:2 0:208 4:31 0:1 168:42 0:1 168:3 0:2 168:2 0:16 4:3 0:55 4:4 115:40",
  "0:8 138:42 0:22 118:26 0:38 24:28 0:20 38:23 0:9 14:78 0:4 14:36 0:9 14:1 62:67 0:10 62:1 0:2",
  "139:25 0:7 139:10 0:6 21:53 0:1 21:18 0:8 82:39 0:9 133:96 0:1 137:20 0:11 70:18 0:1 70:47",
  "0:62 98:7 0:1 98:1 0:1 98:4 0:1 98:15 0:1 98:11 0:6 71:59 0:5 71:10 0:6 44:4 0:1 44:8 0:2 44:2",
  "0:2 44:22 0:1 44:7 0:1 44:2 0:1 44:5 0:1 58:1 44:9 0:2 44:2 0:2 44:3 0:2 44:1 0:6 44:1 0:5",
  "44:7 0:2 44:7 0:3 44:5 0:11 162:10 0:1 162:1 0:2 162:1 0:1 162:38 0:1 162:10 0:1 162:1 0:2",
  "162:1 0:1 162:4 0:1 162:10 0:1 162:2 0:8 162:2 0:29 103:92 0:1 103:5 0:30 159:72 0:8 159:10",
  "0:166 135:54 0:2 135:38 0:34 95:69 0:11 95:10 0:6 96:13 0:19 150:58 0:6 150:10 0:6 99:20 0:28",
  "2:27 0:2 2:15 0:4 2:23 0:185 34:60 0:100 167:83 0:12 167:1 33:7 0:2 33:1 0:2 33:8 0:1 33:2 0:1",
  "33:30 0:1 33:2 0:2 33:12 0:9 33:10 0:70 102:8 0:2 102:46 0:2 102:11 0:27 170:72 0:8 140:83",
  "0:13 18:16 125:57 0:7 32:10 0:182 142:34 0:14 142:10 0:6 12:9 0:1 12:45 0:1 12:14 0:10 12:29",
  "0:3 87:32 0:2 87:22 0:1 87:14 0:73 88:7 0:1 88:2 0:1 88:44 0:3 88:1 0:1 88:2 0:1 88:9 0:8",
  "88:10 0:6 47:6 0:1 47:2 0:1 47:37 0:1 47:2 0:1 47:6 0:7 47:10 0:310 83:25 0:7 65:17 0:1 65:41",
  "0:3 65:29 0:85 79:1 0:15 151:50 0:13 151:1 27:922 0:102 27:111 0:1 27:5 0:11 27:196 0:2636",
  "29:99 0:13 36:1110 0:10 36:3995 0:5 3:583 0:6841 49:58 0:1734 8:569 0:7 97:31 0:1 97:10 0:4",
  "97:2 152:79 0:1 152:10 0:6 9:30 0:2 9:6 0:10 123:70 0:10 123:10 0:1 123:7 0:1 123:21 0:5",
  "123:19 0:432 72:58 0:198 89:91 0:101 94:75 0:4 94:57 0:7 94:17 0:64 153:1 106:1 50:2 68:1 0:11",
  "50:2 0:14 153:6136 0:8 153:768 68:470 0:41 68:1 153:9 0:8935 64:4 0:1 64:7 0:1 64:2 0:1 64:1",
  "56:287 64:3 0:15 56:1 0:29 56:3 0:2 64:1 0:14 64:4 0:8 106:396 0:2308 35:107 0:5 35:13 0:3",
  "35:9 0:7 35:10 0:2 35:4 25:4 0:3932 25:250 0:6 25:436 0:76 58:46 0:2 58:23 0:9 25:116 0:60",
  "25:246 0:10 25:39 0:2 25:62 58:3 25:17 58:8 25:2 58:7 25:30 58:4 25:61 0:21 45:70 0:122 25:20",
  "0:12 25:20 0:12 25:87 0:9 25:25 0:135 25:85 0:1 25:71 0:1 25:2 0:2 25:1 0:2 25:2 0:2 25:4 0:1",
  "25:12 0:1 25:1 0:1 25:7 0:1 25:65 0:1 25:4 0:2 25:8 0:1 25:7 0:1 25:28 0:1 25:4 0:1 25:5 0:1",
  "25:1 0:3 25:7 0:1 25:340 0:2 25:292 0:2 25:50 136:652 0:15 136:5 0:1 136:15 0:1104 74:31 0:6",
  "74:6 0:213 42:7 0:1 42:17 0:2 42:7 0:1 42:2 0:1 42:5 0:5 30:62 0:33 30:1 0:112 107:45 0:3",
  "107:14 0:2 107:10 0:4 107:2 0:320 161:31 0:17 166:58 0:5 166:1 0:464 101:42 0:214 119:43 0:4",
  "119:1 0:480 39:7 0:1 39:4 0:1 39:2 0:1 39:15 0:1 91:197 0:2 91:16 0:41 1:76 0:4 1:10 0:4 1:2",
  "0:785 25:68 0:76 25:61 0:194 4:4 0:1 4:27 0:1 4:2 0:1 4:1 0:2 4:1 0:1 4:10 0:1 4:4 0:1 4:1 0:1",
  "4:1 0:6 4:1 0:4 4:1 0:1 4:1 0:1 4:1 0:1 4:3 0:1 4:2 0:1 4:1 0:2 4:1 0:1 4:1 0:1 4:1 0:1 4:1",
  "0:1 4:1 0:1 4:2 0:1 4:1 0:2 4:4 0:1 4:7 0:1 4:4 0:1 4:4 0:1 4:1 0:1 4:10 0:1 4:17 0:5 4:3 0:1",
  "4:5 0:1 4:17 0:52 4:2 0:270 25:44 0:4 25:100 0:12 25:15 0:2 25:15 0:1 25:15 0:1 25:37 0:10",
  "25:174 0:56 25:26 56:1 25:2 0:13 25:44 0:4 25:9 0:7 25:2 0:14 25:6 0:154 25:984 0:4 25:17 0:3",
  "25:13 0:3 25:119 0:4 25:95 0:6 25:12 0:4 25:1 0:15 25:12 0:4 25:56 0:8 25:10 0:6 25:40 0:8",
  "25:30 0:2 25:12 0:4 25:2 0:62 25:340 0:12 25:14 0:2 25:13 0:3 25:10 0:5 25:56 0:7 25:15 0:2",
  "25:11 0:6 25:9 0:7 25:147 0:1 25:102 0:1030 50:42720 0:32 50:4154 0:6 50:222 0:2 50:5762 0:14",
  "50:7473 0:15 50:622 0:2466 50:542 0:1506 50:4939 0:5 50:4192 0:711761 25:1 0:30 25:96 0:128",
  "58:240 0:196112"]

/-- The characters that several scripts share: the first of a run, how many, and the scripts. -/
def sharedRuns : List String := [
  "183:1:6:19:26:35:37:41:42:43:45:47:50:74:81:82:113:134 700:1:11:30:32:74:79:156:161",
  "711:1:13:74 713:3:13:74 717:1:74:79 727:1:74:156 729:1:13:74 768:1:23:26:30:45:74:113:142:147",
  "769:1:23:30:45:74:121:142:147:160 770:1:23:30:74:158 771:1:42:74:142:144:156",
  "772:1:20:23:26:30:43:45:74:121:144:158:160 773:1:26:37:42:43:64:74 774:1:30:45:74:113:158",
  "775:1:26:35:55:74:113:144:147:158:160 776:1:5:30:35:43:45:55:74:113:144:147:158 777:1:74:158",
  "778:1:35:74:144 779:1:23:30:74:121 780:1:23:74:147 781:1:74:142 782:1:39:74 784:1:74:142",
  "785:1:30:74:160 787:1:45:74:113:160 803:1:23:35:64:74:144:158 804:1:23:35:74:144 805:1:74:144",
  "813:1:74:142:144 814:1:74:144 816:1:23:74:144 817:1:20:23:43:74:142:144:156 834:1:45 837:1:45",
  "856:1:74:121 862:1:20:74:160 867:13:74 884:2:26:45 1155:1:30:113 1156:1:30:42 1157:2:30:74",
  "1159:1:30:42 1417:1:5:41:42 1548:1:4:40:52:105:144:155:168 1563:1:4:40:52:105:144:155:168",
  "1564:1:4:144:155 1567:1:1:4:40:52:105:144:155:168 1600:1:1:4:52:85:86:118:128:138:144",
  "1611:11:4:144 1632:10:4:155:168 1648:1:4:144 1748:1:4:52",
  "2385:1:11:32:44:46:48:63:74:84:102:103:120:133:151:154:159",
  "2386:1:11:32:44:46:48:63:74:84:103:120:151:154:159",
  "2404:1:11:32:34:44:46:47:48:63:71:82:84:88:102:119:120:137:143:150:151:154:159",
  "2405:1:11:32:34:44:46:47:48:49:63:71:76:82:84:88:102:119:120:137:143:150:151:154:159",
  "2406:10:32:34:62:82 2534:10:11:21:143 2662:10:48:98 2790:10:46:70 3046:14:44:151",
  "3302:10:63:102:162 4160:10:21:99:147 4347:1:41:42:74 5867:3:130 5941:2:17:53:145:146",
  "6146:2:96:126 6149:1:96:126 7376:1:11:32:44:63 7377:1:32 7378:1:11:32:44:63 7379:1:32:44:63",
  "7380:1:32 7381:1:11:32:103:154:159 7382:1:11:32:154 7383:1:32:103:133 7384:1:11:32:103:154",
  "7385:1:32:133 7386:1:32:63:84:120:151:154 7387:1:32 7388:2:32:133 7390:2:32 7392:1:32:133",
  "7393:1:11:32 7394:1:32:103:159 7395:6:32 7401:1:32:102:103 7402:1:11:32:133 7403:1:32:103",
  "7404:1:32 7405:1:11:32:103:133 7406:4:32 7410:1:11:32:44:63:84:102:120:137:154:159:162",
  "7411:1:32:44 7412:1:32:44:63:162 7413:2:11:32 7415:1:11 7416:2:32:44 7418:1:102 7616:2:45",
  "7672:1:30:74:144 7674:1:144 8239:1:74:96:126 8271:1:1:4 8282:1:19:41:42:80:110:117",
  "8285:1:19:45:93:110 8432:1:32:44:74 11799:1:26:74 11824:1:6:117 11825:1:6:19:41:62:81:110:131",
  "11836:1:35 11841:1:1:4:110 11843:1:30:42 12272:16:50:153 12289:1:13:50:51:56:64:96:169",
  "12290:1:13:50:51:56:64:96:126:169 12291:1:13:50:51:56:64 12294:1:50",
  "12296:2:13:50:51:56:64:96:157:169 12298:2:13:50:51:56:64:79:96:157:169",
  "12300:6:13:50:51:56:64:169 12307:1:13:50:51:56:64 12308:8:13:50:51:56:64:169",
  "12316:4:13:50:51:56:64 12330:4:13:50 12336:1:13:50:51:56:64 12337:5:56:64",
  "12343:1:13:50:51:56:64 12348:2:50:56:64 12350:2:50 12441:4:56:64 12448:1:56:64",
  "12539:1:13:50:51:56:64:169 12540:1:56:64 12688:16:50 12736:38:50 12783:1:50:153 12832:40:50",
  "12928:49:50 12992:12:50 13055:1:50 13144:25:50 13179:5:50 13280:31:50 42607:1:30:42",
  "42752:8:50:74 43056:3:32:34:46:48:62:63:70:71:82:84:95:102:133:150:159:162",
  "43059:3:32:34:46:48:62:63:70:71:82:95:102:133:150:159:162",
  "43062:2:32:34:46:48:62:70:71:82:95:150:159 43064:1:32:34:46:48:62:70:71:82:95:133:150:159",
  "43065:1:32:34:46:48:62:70:71:82:95:150:159 43249:1:11:32:162 43251:1:32:151 43310:1:66:74:99",
  "43471:1:16:61 64830:2:4:105 65010:1:4:155 65021:1:4:155 65093:2:13:50:51:56:64",
  "65377:5:13:50:51:56:64:169 65392:1:56:64 65438:2:56:64 65792:2:28:29:78 65794:1:28:78",
  "65799:45:28:77:78 65847:9:28:78 66272:28:4:26 68338:1:86:118 70401:1:44:151 70403:1:44:151",
  "70459:2:44:151 73680:2:44:151 73683:1:44:151 113824:4:35 119648:18:50 127568:2:50"]

end ParticleAutomaton.Unicode
