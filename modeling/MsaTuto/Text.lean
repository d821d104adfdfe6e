import Mathlib.Algebra.GroupWithZero.Nat
import Mathlib.Data.List.Basic

/-! Strings as JavaScript has them: their length in UTF-16 units, and `toUpperCase`. -/
namespace Js

section Length

/-- A character beyond the basic plane is two units. -/
def utf16Size (c : Char) : Nat := if c.toNat < 0x10000 then 1 else 2

/-- `s.length`. -/
def utf16Length (s : String) : Nat := (s.toList.map utf16Size).sum

theorem utf16Size_pos (c : Char) : 0 < utf16Size c := by
  unfold utf16Size
  split <;> decide

/-- A proper prefix is shorter in units, too. -/
theorem eq_of_prefix {s t : String} (h : s.toList <+: t.toList)
    (hlen : utf16Length t ≤ utf16Length s) : s = t := by
  obtain ⟨rest, hrest⟩ := h
  rw [utf16Length, ← hrest, List.map_append, List.sum_append, utf16Length] at hlen
  cases rest with
  | nil =>
    rw [List.append_nil] at hrest
    exact String.toList_inj.mp hrest
  | cons c rest =>
    have hpos := utf16Size_pos c
    rw [List.map_cons, List.sum_cons] at hlen
    omega

end Length

section Capitals

/-- From the first to the last every second letter follows its capital. -/
def alternating : List (Nat × Nat) :=
  [(257, 303), (307, 311), (314, 328), (331, 375), (378, 382), (387, 389), (392, 392), (396, 396),
   (402, 402), (409, 409), (417, 421), (424, 424), (429, 429), (432, 432), (436, 438), (441, 441),
   (445, 445), (453, 453), (456, 456), (459, 459), (462, 476), (479, 495), (498, 498), (501, 501),
   (505, 543), (547, 563), (572, 572), (578, 578), (583, 591), (881, 883), (887, 887), (985, 1007),
   (1016, 1016), (1019, 1019), (1121, 1153), (1163, 1215), (1218, 1230), (1233, 1327), (7681, 7829),
   (7841, 7935), (8580, 8580), (11361, 11361), (11368, 11372), (11379, 11379), (11382, 11382),
   (11393, 11491), (11500, 11502), (11507, 11507), (42561, 42605), (42625, 42651), (42787, 42799),
   (42803, 42863), (42874, 42876), (42879, 42887), (42892, 42892), (42897, 42899), (42903, 42921),
   (42933, 42947), (42952, 42954), (42961, 42961), (42967, 42969), (42998, 42998)]

/-- The letters from the first to the last, and the capital of the first. -/
def capitalRuns : List (Nat × Nat × Nat) :=
  [(181, 181, 924), (224, 246, 192), (248, 254, 216), (255, 255, 376), (305, 305, 73),
   (383, 383, 83), (384, 384, 579), (405, 405, 502), (410, 410, 573), (414, 414, 544),
   (447, 447, 503), (454, 454, 452), (457, 457, 455), (460, 460, 458), (477, 477, 398),
   (499, 499, 497), (575, 576, 11390), (592, 592, 11375), (593, 593, 11373), (594, 594, 11376),
   (595, 595, 385), (596, 596, 390), (598, 599, 393), (601, 601, 399), (603, 603, 400),
   (604, 604, 42923), (608, 608, 403), (609, 609, 42924), (611, 611, 404), (613, 613, 42893),
   (614, 614, 42922), (616, 616, 407), (617, 617, 406), (618, 618, 42926), (619, 619, 11362),
   (620, 620, 42925), (623, 623, 412), (625, 625, 11374), (626, 626, 413), (629, 629, 415),
   (637, 637, 11364), (640, 640, 422), (642, 642, 42949), (643, 643, 425), (647, 647, 42929),
   (648, 648, 430), (649, 649, 580), (650, 651, 433), (652, 652, 581), (658, 658, 439),
   (669, 669, 42930), (670, 670, 42928), (837, 837, 921), (891, 893, 1021), (940, 940, 902),
   (941, 943, 904), (945, 961, 913), (962, 962, 931), (963, 971, 931), (972, 972, 908),
   (973, 974, 910), (976, 976, 914), (977, 977, 920), (981, 981, 934), (982, 982, 928),
   (983, 983, 975), (1008, 1008, 922), (1009, 1009, 929), (1010, 1010, 1017), (1011, 1011, 895),
   (1013, 1013, 917), (1072, 1103, 1040), (1104, 1119, 1024), (1231, 1231, 1216),
   (1377, 1414, 1329), (4304, 4346, 7312), (4349, 4351, 7357), (5112, 5117, 5104),
   (7296, 7296, 1042), (7297, 7297, 1044), (7298, 7298, 1054), (7299, 7300, 1057),
   (7301, 7301, 1058), (7302, 7302, 1066), (7303, 7303, 1122), (7304, 7304, 42570),
   (7545, 7545, 42877), (7549, 7549, 11363), (7566, 7566, 42950), (7835, 7835, 7776),
   (7936, 7943, 7944), (7952, 7957, 7960), (7968, 7975, 7976), (7984, 7991, 7992),
   (8000, 8005, 8008), (8017, 8017, 8025), (8019, 8019, 8027), (8021, 8021, 8029),
   (8023, 8023, 8031), (8032, 8039, 8040), (8048, 8049, 8122), (8050, 8053, 8136),
   (8054, 8055, 8154), (8056, 8057, 8184), (8058, 8059, 8170), (8060, 8061, 8186),
   (8112, 8113, 8120), (8126, 8126, 921), (8144, 8145, 8152), (8160, 8161, 8168),
   (8165, 8165, 8172), (8526, 8526, 8498), (8560, 8575, 8544), (9424, 9449, 9398),
   (11312, 11359, 11264), (11365, 11365, 570), (11366, 11366, 574), (11520, 11557, 4256),
   (11559, 11559, 4295), (11565, 11565, 4301), (42900, 42900, 42948), (43859, 43859, 42931),
   (43888, 43967, 5024), (65345, 65370, 65313), (66600, 66639, 66560), (66776, 66811, 66736),
   (66967, 66977, 66928), (66979, 66993, 66940), (66995, 67001, 66956), (67003, 67004, 66964),
   (68800, 68850, 68736), (71872, 71903, 71840), (93792, 93823, 93760), (125218, 125251, 125184)]

/-- The letters whose capital is several characters, those with an iota below apart. -/
def longCapitals : List (Nat × List Nat) :=
  [(223, [83, 83]), (329, [700, 78]), (496, [74, 780]), (912, [921, 776, 769]),
   (944, [933, 776, 769]), (1415, [1333, 1362]), (7830, [72, 817]), (7831, [84, 776]),
   (7832, [87, 778]), (7833, [89, 778]), (7834, [65, 702]), (8016, [933, 787]),
   (8018, [933, 787, 768]), (8020, [933, 787, 769]), (8022, [933, 787, 834]), (8114, [8122, 921]),
   (8115, [913, 921]), (8116, [902, 921]), (8118, [913, 834]), (8119, [913, 834, 921]),
   (8124, [913, 921]), (8130, [8138, 921]), (8131, [919, 921]), (8132, [905, 921]),
   (8134, [919, 834]), (8135, [919, 834, 921]), (8140, [919, 921]), (8146, [921, 776, 768]),
   (8147, [921, 776, 769]), (8150, [921, 834]), (8151, [921, 776, 834]), (8162, [933, 776, 768]),
   (8163, [933, 776, 769]), (8164, [929, 787]), (8166, [933, 834]), (8167, [933, 776, 834]),
   (8178, [8186, 921]), (8179, [937, 921]), (8180, [911, 921]), (8182, [937, 834]),
   (8183, [937, 834, 921]), (8188, [937, 921]), (64256, [70, 70]), (64257, [70, 73]),
   (64258, [70, 76]), (64259, [70, 70, 73]), (64260, [70, 70, 76]), (64261, [83, 84]),
   (64262, [83, 84]), (64275, [1348, 1350]), (64276, [1348, 1333]), (64277, [1348, 1339]),
   (64278, [1358, 1350]), (64279, [1348, 1341])]

def capital (n : Nat) : Nat :=
  match capitalRuns.find? fun run => run.1 ≤ n && n ≤ run.2.1 with
  | some run => run.2.2 + (n - run.1)
  | none => if alternating.any fun run => run.1 ≤ n && n ≤ run.2 && (n - run.1) % 2 = 0 then n - 1
    else n

/-- Alpha, eta and omega with an iota below, eight small and eight capital ones each. -/
def iotaCapital (n : Nat) : List Nat :=
  [[0x1F08, 0x1F28, 0x1F68].getD ((n - 0x1F80) / 16) 0 + n % 8, 0x399]

/-- What Unicode maps a character to, whatever the locale. -/
def upperChar (c : Char) : List Char :=
  if c.toNat < 0x80 then [c.toUpper]
  else if 0x1F80 ≤ c.toNat ∧ c.toNat < 0x1FB0 then (iotaCapital c.toNat).map Char.ofNat
  else match longCapitals.lookup c.toNat with
    | some codes => codes.map Char.ofNat
    | none => [Char.ofNat (capital c.toNat)]

def toUpperCase (s : String) : String := String.ofList (s.toList.flatMap upperChar)

/-- On ASCII it is what one takes it for. -/
theorem toUpperCase_ascii {s : String} (h : ∀ c ∈ s.toList, c.toNat < 0x80) :
    toUpperCase s = String.ofList (s.toList.map Char.toUpper) := by
  have hchars : ∀ cs : List Char, (∀ c ∈ cs, c.toNat < 0x80) →
      cs.flatMap upperChar = cs.map Char.toUpper := by
    intro cs hcs
    induction cs with
    | nil => rfl
    | cons c cs ih =>
      rw [List.flatMap_cons, List.map_cons, upperChar, if_pos (hcs c List.mem_cons_self),
        ih fun c' hc' => hcs c' (List.mem_cons_of_mem c hc')]
      rfl
  rw [toUpperCase, hchars s.toList h]

example : toUpperCase "straße ǆ ᾳ" = "STRASSE Ǆ ΑΙ" := by decide +kernel

end Capitals
end Js
