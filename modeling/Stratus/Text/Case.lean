import Stratus.Text.Ranges

/-!
Case mapping: lower, upper and title forms of characters and of whole texts, with the characters
whose form is longer than one character and the final form of sigma.
-/
namespace Stratus.Text

/-- A run of characters `(first, last, step, image of first)`. -/
abbrev Run := Nat × Nat × Nat × Nat

def runs : List Nat → List Run
  | first :: last :: step :: image :: rest => (first, last, step, image) :: runs rest
  | _ => []

def pairs : List Nat → List Run
  | n :: image :: rest => (n, n, 1, image) :: pairs rest
  | _ => []

/-- Runs of characters with one-character lower forms of which they are the upper forms. -/
def caseRuns : List Run := runs [
  65,90,1,97,192,214,1,224,216,222,1,248,256,302,2,257,306,310,2,307,313,327,2,314,330,374,2,331,
  377,381,2,378,386,388,2,387,393,394,1,598,416,420,2,417,433,434,1,650,435,437,2,436,461,475,2,462,
  478,494,2,479,504,542,2,505,546,562,2,547,582,590,2,583,880,882,2,881,904,906,1,941,910,911,1,973,
  913,929,1,945,931,939,1,963,984,1006,2,985,1021,1023,1,891,1024,1039,1,1104,1040,1071,1,1072,1120,
  1152,2,1121,1162,1214,2,1163,1217,1229,2,1218,1232,1326,2,1233,1329,1366,1,1377,4256,4293,1,11520,
  5024,5103,1,43888,5104,5109,1,5112,7312,7354,1,4304,7357,7359,1,4349,7680,7828,2,7681,7840,7934,2,
  7841,7944,7951,1,7936,7960,7965,1,7952,7976,7983,1,7968,7992,7999,1,7984,8008,8013,1,8000,8025,
  8031,2,8017,8040,8047,1,8032,8120,8121,1,8112,8122,8123,1,8048,8136,8139,1,8050,8152,8153,1,8144,
  8154,8155,1,8054,8168,8169,1,8160,8170,8171,1,8058,8184,8185,1,8056,8186,8187,1,8060,8544,8559,1,
  8560,9398,9423,1,9424,11264,11311,1,11312,11367,11371,2,11368,11390,11391,1,575,11392,11490,2,
  11393,11499,11501,2,11500,42560,42604,2,42561,42624,42650,2,42625,42786,42798,2,42787,42802,42862,
  2,42803,42873,42875,2,42874,42878,42886,2,42879,42896,42898,2,42897,42902,42920,2,42903,42932,
  42946,2,42933,42951,42953,2,42952,42966,42968,2,42967,65313,65338,1,65345,66560,66599,1,66600,
  66736,66771,1,66776,66928,66938,1,66967,66940,66954,1,66979,66956,66962,1,66995,66964,66965,1,
  67003,68736,68786,1,68800,71840,71871,1,71872,93760,93791,1,93792,125184,125217,1,125218]

/-- Such characters that stand alone, and their lower forms. -/
def casePairs : List Run := pairs [
  376,255,385,595,390,596,391,392,395,396,398,477,399,601,400,603,401,402,403,608,404,611,406,617,
  407,616,408,409,412,623,413,626,415,629,422,640,423,424,425,643,428,429,430,648,431,432,439,658,
  440,441,444,445,452,454,455,457,458,460,497,499,500,501,502,405,503,447,544,414,570,11365,571,572,
  573,410,574,11366,577,578,579,384,580,649,581,652,886,887,895,1011,902,940,908,972,975,983,1015,
  1016,1017,1010,1018,1019,1216,1231,4295,11559,4301,11565,8172,8165,8498,8526,8579,8580,11360,
  11361,11362,619,11363,7549,11364,637,11373,593,11374,625,11375,592,11376,594,11378,11379,11381,
  11382,11506,11507,42877,7545,42891,42892,42893,613,42922,614,42923,604,42924,609,42925,620,42926,
  618,42928,670,42929,647,42930,669,42931,43859,42948,42900,42949,642,42950,7566,42960,42961,42997,
  42998]

/-- Runs of characters with a one-character lower form that has another upper form. -/
def lowerShifts : List Run :=
  pairs [453,454,456,457,459,460,498,499,1012,952,7838,223] ++
    runs [8072,8079,1,8064,8088,8095,1,8080,8104,8111,1,
    8096] ++ pairs [8124,8115,8140,8131,8188,8179,8486,969,8490,107,8491,229]

/-- Runs of characters with a one-character upper form that has another lower form. -/
def upperShifts : List Run :=
  pairs [181,924,305,73,383,83,453,452,456,455,459,458,498,497,837,921,962,931,976,914,977,920,981,
    934,982,928,1008,922,1009,929,1013,917,7296,1042,7297,1044,7298,1054,7299,1057,7300,1058,7301,
    1058,7302,1066,7303,1122,7304,42570,7835,7776,8126,921]

/-- Runs of characters whose upper form is one character and an iota. -/
def iotaShifts : List Run :=
  runs [8064,8071,1,7944,8072,8079,1,7944,8080,8087,1,7976,8088,8095,1,7976,8096,8103,1,8040,8104,
    8111,1,8040] ++
    pairs [8115,913,8124,913,8131,919,8140,919,8179,937,8188,937]

/-- Runs of characters whose title form is one character, but not their upper form. -/
def titleShifts : List Run :=
  pairs [452,453,453,453,454,453,455,456,456,456,457,456,458,459,459,459,460,459,497,498,498,498,499,
    498] ++
    runs [4304,4346,1,4304,4349,4351,1,4349,8064,8071,1,8072,8080,8087,1,8088,8096,8103,1,8104] ++
      pairs [8115,8124,
    8131,8140,8179,8188]

/-- Characters whose title form is longer; the upper form of each is that of its title form. -/
def titleLong : List (Nat × List Nat) := [
  (223,[83,115]),(329,[700,78]),(496,[74,780]),(912,[921,776,769]),(944,[933,776,769]),
  (1415,[1333,1410]),(7830,[72,817]),(7831,[84,776]),(7832,[87,778]),(7833,[89,778]),
  (7834,[65,702]),(8016,[933,787]),(8018,[933,787,768]),(8020,[933,787,769]),(8022,[933,787,834]),
  (8114,[8122,837]),(8116,[902,837]),(8118,[913,834]),(8119,[913,834,837]),(8130,[8138,837]),
  (8132,[905,837]),(8134,[919,834]),(8135,[919,834,837]),(8146,[921,776,768]),(8147,[921,776,769]),
  (8150,[921,834]),(8151,[921,776,834]),(8162,[933,776,768]),(8163,[933,776,769]),(8164,[929,787]),
  (8166,[933,834]),(8167,[933,776,834]),(8178,[8186,837]),(8180,[911,837]),(8182,[937,834]),
  (8183,[937,834,837]),(64256,[70,102]),(64257,[70,105]),(64258,[70,108]),(64259,[70,102,105]),
  (64260,[70,102,108]),(64261,[83,116]),(64262,[83,116]),(64275,[1348,1398]),(64276,[1348,1381]),
  (64277,[1348,1387]),(64278,[1358,1398]),(64279,[1348,1389])]

/-- Gaps and widths of the characters that have a case. -/
def casedSpans : List Nat := [
  65,26,6,26,47,1,10,1,4,1,5,23,1,31,1,195,1,4,4,208,1,36,7,2,30,5,96,1,42,4,2,2,2,4,1,1,6,1,1,3,1,
  1,1,20,1,83,1,139,8,166,1,38,9,41,2839,38,1,1,5,1,2,43,2,3,672,86,2,6,2178,9,7,43,2,3,64,192,64,
  278,2,6,2,38,2,6,2,8,1,1,1,1,1,1,1,31,2,53,1,7,1,1,3,3,1,7,3,4,2,6,4,13,5,3,1,7,116,1,13,1,16,13,
  101,1,4,1,2,10,1,1,3,5,6,1,1,1,1,1,1,4,1,6,4,1,2,4,5,5,4,1,17,32,3,2,817,52,1814,229,6,4,3,2,12,
  38,1,1,5,1,30994,46,18,30,132,102,3,4,1,59,5,2,1,1,1,5,27,2,1,3,821,43,1,13,7,80,20288,7,12,5,
  1033,26,6,26,1189,80,96,36,4,36,116,11,1,15,1,7,1,2,1,11,1,15,1,7,1,2,451,1,2,3,1,42,1,9,1221,51,
  13,51,2989,64,21856,64,25984,85,1,71,1,2,2,1,2,2,2,4,1,12,1,1,1,7,1,65,1,4,2,8,1,7,1,28,1,4,1,5,1,
  1,3,7,1,340,2,25,1,25,1,31,1,25,1,31,1,25,1,31,1,25,1,31,1,25,1,8,1844,10,1,20,2529,68,2028,26,6,
  26,6,26]

/-- Gaps and widths of the characters that case rules look through. -/
def ignorableSpans : List Nat := [
  39,1,6,1,11,1,35,1,1,1,71,1,4,1,1,1,4,1,2,2,503,192,4,2,4,1,9,2,1,1,251,7,207,1,5,1,49,45,1,1,1,2,
  1,2,1,1,44,1,11,6,10,11,1,1,35,1,10,21,16,1,101,8,1,10,1,4,33,1,1,1,30,27,91,11,58,11,4,1,2,1,24,
  24,43,3,44,1,7,2,6,8,41,58,55,1,1,1,4,8,4,1,3,7,10,2,13,1,15,1,58,1,4,4,8,1,20,2,26,1,2,2,57,1,4,
  2,4,2,2,3,3,1,30,2,3,1,11,2,57,1,4,5,1,2,4,1,20,2,22,6,1,1,58,1,2,1,1,4,8,1,7,2,11,2,30,1,61,1,12,
  1,50,1,3,1,55,1,1,3,5,3,1,4,7,2,11,2,29,1,58,1,2,1,6,1,5,2,20,2,28,2,57,2,4,4,8,1,20,2,29,1,72,1,
  7,3,1,1,90,1,2,7,11,9,98,1,2,9,9,1,1,6,74,2,27,1,1,1,1,1,55,14,1,5,1,2,5,11,1,36,9,1,102,4,1,6,1,
  2,2,2,25,2,4,3,16,4,13,1,2,2,6,1,15,1,94,1,608,3,946,3,29,2,30,2,30,2,64,2,1,7,8,1,2,11,3,1,5,1,
  45,5,51,1,65,2,34,1,118,3,4,2,9,1,6,3,219,2,2,1,58,1,1,7,1,1,1,1,2,8,6,10,2,1,39,1,8,31,49,4,48,1,
  1,5,1,1,5,1,40,9,12,2,32,4,2,2,1,3,56,1,1,2,3,1,1,3,58,8,2,2,64,6,82,3,1,13,1,7,4,1,6,1,3,2,50,63,
  13,1,34,101,445,1,1,3,11,3,13,3,13,3,13,2,12,5,8,2,10,1,2,1,2,5,49,5,1,10,1,1,13,1,16,13,51,33,
  2955,2,113,3,125,1,15,1,96,32,47,1,469,1,36,4,3,5,5,1,93,6,93,3,28438,1,1250,6,270,1,98,4,1,10,1,
  1,28,4,80,2,14,34,78,1,23,3,103,3,3,2,8,1,3,1,4,1,25,2,5,1,151,2,26,18,13,1,38,8,25,11,46,3,48,1,
  2,4,2,2,17,1,21,2,66,6,2,2,2,2,12,1,8,1,35,1,11,1,51,1,1,3,2,2,5,2,1,1,27,1,14,2,5,2,1,1,100,5,9,
  3,121,1,2,1,4,1,20272,1,147,17,573,16,3,1,12,16,34,1,2,1,169,1,7,1,6,1,11,1,35,1,1,1,47,1,45,2,67,
  1,21,3,513,1,226,1,149,5,1029,6,1,42,1,9,582,3,1,2,5,4,40,3,4,1,165,2,573,4,387,2,153,11,49,4,123,
  1,54,15,41,1,2,2,10,3,49,4,2,2,2,1,4,1,10,1,50,3,36,5,1,8,62,1,12,2,52,9,10,4,2,1,95,3,2,1,1,2,6,
  1,160,1,3,8,21,2,57,2,3,1,37,7,3,5,195,8,2,3,1,1,23,1,84,6,1,1,4,2,1,2,238,4,6,2,1,2,27,2,85,8,2,
  1,1,2,106,1,1,1,2,6,1,1,101,3,2,4,1,5,259,9,1,2,256,2,1,1,4,1,144,4,2,2,4,1,32,10,40,6,2,4,8,1,9,
  6,2,3,46,13,1,2,406,7,1,6,1,1,82,22,2,7,1,2,1,2,122,6,3,1,1,2,1,7,1,1,72,2,3,1,1,1,347,2,5435,9,
  14007,5,59,7,9,4,1035,1,63,17,64,2,1,2,16395,4,1,7,1,2,3230,2,1,4,4700,46,2,23,544,3,9,16,2,7,30,
  4,148,3,1979,55,4,50,8,1,14,1,22,5,1,15,1360,7,1,17,2,7,1,2,1,5,261,14,368,1,61,4,1504,7,109,8,
  2735,5,789505,1,30,96,128,240]

def isCased (c : Char) : Bool := among casedSpans c.toNat

def isCaseIgnorable (c : Char) : Bool := among ignorableSpans c.toNat

def shifted? : List Run → Nat → Option Nat
  | (first, last, step, image) :: rest, n =>
    if n < first then none
    else if n ≤ last && (n - first) % step == 0 then some (image + (n - first))
    else shifted? rest n
  | [], _ => none

def unshifted? : List Run → Nat → Option Nat
  | (first, last, step, image) :: rest, n =>
    if image ≤ n && n - image ≤ last - first && (n - image) % step ==
      0 then some (first + (n - image))
    else unshifted? rest n
  | [], _ => none

def lowered (n : Nat) : Nat :=
  (shifted? caseRuns n <|> shifted? casePairs n <|> shifted? lowerShifts n).getD n

def raised (n : Nat) : Nat :=
  (unshifted? caseRuns n <|> unshifted? casePairs n <|> shifted? upperShifts n).getD n

def longTitle? (n : Nat) : Option (List Nat) := (titleLong.find? fun row => row.1 == n).map Prod.snd

def upperChar (c : Char) : List Char :=
  match shifted? iotaShifts c.toNat with
  | some n => [Char.ofNat n, 'Ι']
  | none => ((longTitle? c.toNat).getD [c.toNat]).map fun n => Char.ofNat (raised n)

def titleChar (c : Char) : List Char :=
  ((longTitle? c.toNat).getD [(shifted? titleShifts c.toNat).getD (raised c.toNat)]).map Char.ofNat

/-- Sigma takes its final form after a cased character when none follows, looking through ignorable
ones. -/
def sigmaIsFinal (before after : List Char) : Bool :=
  (match before.dropWhile isCaseIgnorable with
    | c :: _ => isCased c
    | [] => false) &&
  (match after.dropWhile isCaseIgnorable with
    | c :: _ => !isCased c
    | [] => true)

/-- The lower form of a character between the text before it, nearest first, and after it. -/
def lowerChar (before : List Char) (c : Char) (after : List Char) : List Char :=
  if c == 'Σ' then [if sigmaIsFinal before after then 'ς' else 'σ']
  else if c == 'İ' then ['i', Char.ofNat 0x307]
  else [Char.ofNat (lowered c.toNat)]

def lowerFrom (before : List Char) : List Char → List Char
  | [] => []
  | c :: rest => lowerChar before c rest ++ lowerFrom (c :: before) rest

def lower (s : String) : String := String.ofList (lowerFrom [] s.toList)

def upper (s : String) : String := String.ofList (s.toList.flatMap upperChar)

def titleFrom (before : List Char) : List Char → List Char
  | [] => []
  | c :: rest =>
    (match before with
      | b :: _ => if isCased b then lowerChar before c rest else titleChar c
      | [] => titleChar c) ++ titleFrom (c :: before) rest

def title (s : String) : String := String.ofList (titleFrom [] s.toList)

def capitalize (s : String) : String :=
  match s.toList with
  | [] => ""
  | c :: rest => String.ofList (titleChar c ++ lowerFrom [c] rest)

end Stratus.Text
