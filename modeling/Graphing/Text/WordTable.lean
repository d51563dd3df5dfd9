/-
  Graphing.Text.WordTable

  Ranges of code points beyond ASCII (Unicode 14.0): letters and numerals, the
  numerals that cannot begin a name, digits, characters without a visible form,
  and the change of case. Ranges ascend; a code point that is not assigned may
  fall into the range around it.
-/

namespace Graphing.Text

/-- Letters and numerals. -/
def wordRanges : Array (Nat × Nat) := #[
  (170, 170), (178, 179), (181, 181), (185, 186), (188, 190), (192, 214), (216, 246), (248, 705),
  (710, 721), (736, 740), (748, 748), (750, 750), (880, 884), (886, 893), (895, 895), (902, 902),
  (904, 1013), (1015, 1153), (1162, 1369), (1376, 1416), (1488, 1522), (1568, 1610),
  (1632, 1641), (1646, 1647), (1649, 1747), (1749, 1749), (1765, 1766), (1774, 1788),
  (1791, 1791), (1808, 1808), (1810, 1839), (1869, 1957), (1969, 2026), (2036, 2037),
  (2042, 2042), (2048, 2069), (2074, 2074), (2084, 2084), (2088, 2088), (2112, 2136),
  (2144, 2183), (2185, 2190), (2208, 2249), (2308, 2361), (2365, 2365), (2384, 2384),
  (2392, 2401), (2406, 2415), (2417, 2432), (2437, 2489), (2493, 2493), (2510, 2510),
  (2524, 2529), (2534, 2545), (2548, 2553), (2556, 2556), (2565, 2617), (2649, 2671),
  (2674, 2676), (2693, 2745), (2749, 2749), (2768, 2785), (2790, 2799), (2809, 2809),
  (2821, 2873), (2877, 2877), (2908, 2913), (2918, 2927), (2929, 2935), (2947, 3001),
  (3024, 3024), (3046, 3058), (3077, 3129), (3133, 3133), (3160, 3169), (3174, 3183),
  (3192, 3198), (3200, 3200), (3205, 3257), (3261, 3261), (3293, 3297), (3302, 3314),
  (3332, 3386), (3389, 3389), (3406, 3406), (3412, 3414), (3416, 3425), (3430, 3448),
  (3450, 3455), (3461, 3526), (3558, 3567), (3585, 3632), (3634, 3635), (3648, 3654),
  (3664, 3673), (3713, 3760), (3762, 3763), (3773, 3782), (3792, 3840), (3872, 3891),
  (3904, 3948), (3976, 3980), (4096, 4138), (4159, 4169), (4176, 4181), (4186, 4189),
  (4193, 4193), (4197, 4198), (4206, 4208), (4213, 4225), (4238, 4238), (4240, 4249),
  (4256, 4346), (4348, 4954), (4969, 5007), (5024, 5117), (5121, 5740), (5743, 5759),
  (5761, 5786), (5792, 5866), (5870, 5905), (5919, 5937), (5952, 5969), (5984, 6000),
  (6016, 6067), (6103, 6103), (6108, 6108), (6112, 6137), (6160, 6276), (6279, 6312),
  (6314, 6430), (6470, 6618), (6656, 6678), (6688, 6740), (6784, 6809), (6823, 6823),
  (6917, 6963), (6981, 7001), (7043, 7072), (7086, 7141), (7168, 7203), (7232, 7293),
  (7296, 7359), (7401, 7404), (7406, 7411), (7413, 7414), (7418, 7615), (7680, 8124),
  (8126, 8126), (8130, 8140), (8144, 8155), (8160, 8172), (8178, 8188), (8304, 8313),
  (8319, 8329), (8336, 8348), (8450, 8450), (8455, 8455), (8458, 8467), (8469, 8469),
  (8473, 8477), (8484, 8484), (8486, 8486), (8488, 8488), (8490, 8493), (8495, 8505),
  (8508, 8511), (8517, 8521), (8526, 8526), (8528, 8585), (9312, 9371), (9450, 9471),
  (10102, 10131), (11264, 11492), (11499, 11502), (11506, 11507), (11517, 11517), (11520, 11631),
  (11648, 11742), (11823, 11823), (12293, 12295), (12321, 12329), (12337, 12341), (12344, 12348),
  (12353, 12438), (12445, 12447), (12449, 12538), (12540, 12686), (12690, 12693), (12704, 12735),
  (12784, 12799), (12832, 12841), (12872, 12879), (12881, 12895), (12928, 12937), (12977, 12991),
  (13312, 19903), (19968, 42124), (42192, 42237), (42240, 42508), (42512, 42606), (42623, 42653),
  (42656, 42735), (42775, 42783), (42786, 42888), (42891, 43009), (43011, 43013), (43015, 43018),
  (43020, 43042), (43056, 43061), (43072, 43123), (43138, 43187), (43216, 43225), (43250, 43255),
  (43259, 43259), (43261, 43262), (43264, 43301), (43312, 43334), (43360, 43388), (43396, 43442),
  (43471, 43481), (43488, 43492), (43494, 43560), (43584, 43586), (43588, 43595), (43600, 43609),
  (43616, 43638), (43642, 43642), (43646, 43695), (43697, 43697), (43701, 43702), (43705, 43709),
  (43712, 43712), (43714, 43741), (43744, 43754), (43762, 43764), (43777, 43866), (43868, 43881),
  (43888, 44002), (44016, 55291), (63744, 64285), (64287, 64296), (64298, 64433), (64467, 64829),
  (64848, 64967), (65008, 65019), (65136, 65276), (65296, 65305), (65313, 65338), (65345, 65370),
  (65382, 65500), (65536, 65786), (65799, 65843), (65856, 65912), (65930, 65931), (66176, 66256),
  (66273, 66421), (66432, 66461), (66464, 66511), (66513, 66915), (66928, 67669), (67672, 67702),
  (67705, 67867), (67872, 67897), (67968, 68096), (68112, 68149), (68160, 68168), (68192, 68222),
  (68224, 68295), (68297, 68324), (68331, 68335), (68352, 68405), (68416, 68497), (68521, 68899),
  (68912, 69289), (69296, 69445), (69457, 69460), (69488, 69505), (69552, 69622), (69635, 69687),
  (69714, 69743), (69745, 69746), (69749, 69749), (69763, 69807), (69840, 69881), (69891, 69926),
  (69942, 69951), (69956, 69956), (69959, 70002), (70006, 70006), (70019, 70066), (70081, 70084),
  (70096, 70106), (70108, 70108), (70113, 70187), (70272, 70312), (70320, 70366), (70384, 70393),
  (70405, 70457), (70461, 70461), (70480, 70480), (70493, 70497), (70656, 70708), (70727, 70730),
  (70736, 70745), (70751, 70831), (70852, 70853), (70855, 71086), (71128, 71131), (71168, 71215),
  (71236, 71257), (71296, 71338), (71352, 71352), (71360, 71450), (71472, 71483), (71488, 71723),
  (71840, 71983), (71999, 71999), (72001, 72001), (72016, 72144), (72161, 72161), (72163, 72163),
  (72192, 72192), (72203, 72242), (72250, 72250), (72272, 72272), (72284, 72329), (72349, 72349),
  (72368, 72750), (72768, 72768), (72784, 72812), (72818, 72847), (72960, 73008), (73030, 73030),
  (73040, 73097), (73112, 73458), (73648, 73684), (73728, 74862), (74880, 77808), (77824, 78894),
  (82944, 92777), (92784, 92909), (92928, 92975), (92992, 92995), (93008, 93846), (93952, 94026),
  (94032, 94032), (94099, 94177), (94179, 94179), (94208, 113817), (119520, 119539),
  (119648, 120512), (120514, 120538), (120540, 120570), (120572, 120596), (120598, 120628),
  (120630, 120654), (120656, 120686), (120688, 120712), (120714, 120744), (120746, 120770),
  (120772, 120831), (122624, 122654), (123136, 123180), (123191, 123214), (123536, 123565),
  (123584, 123627), (123632, 123641), (124896, 125135), (125184, 125251), (125259, 125273),
  (126065, 126123), (126125, 126127), (126129, 126253), (126255, 126651), (127232, 127244),
  (130032, 201546)]

/-- Letters and numerals that cannot begin a name. -/
def innerRanges : Array (Nat × Nat) := #[
  (178, 179), (185, 185), (188, 190), (890, 890), (1632, 1641), (1776, 1785), (1984, 1993),
  (2406, 2415), (2534, 2543), (2548, 2553), (2662, 2671), (2790, 2799), (2918, 2927),
  (2930, 2935), (3046, 3058), (3174, 3183), (3192, 3198), (3302, 3311), (3416, 3422),
  (3430, 3448), (3558, 3567), (3635, 3635), (3664, 3673), (3763, 3763), (3792, 3801),
  (3872, 3891), (4160, 4169), (4240, 4249), (4969, 4988), (6112, 6137), (6160, 6169),
  (6470, 6479), (6608, 6618), (6784, 6809), (6992, 7001), (7088, 7097), (7232, 7241),
  (7248, 7257), (8304, 8304), (8308, 8313), (8320, 8329), (8528, 8543), (8585, 8585),
  (9312, 9371), (9450, 9471), (10102, 10131), (11517, 11517), (11823, 11823), (12690, 12693),
  (12832, 12841), (12872, 12879), (12881, 12895), (12928, 12937), (12977, 12991), (42528, 42537),
  (43056, 43061), (43216, 43225), (43264, 43273), (43472, 43481), (43504, 43513), (43600, 43609),
  (44016, 44025), (64606, 64611), (65018, 65019), (65136, 65136), (65138, 65138), (65140, 65142),
  (65144, 65144), (65146, 65146), (65148, 65148), (65150, 65150), (65296, 65305), (65438, 65439),
  (65799, 65843), (65909, 65912), (65930, 65931), (66273, 66299), (66336, 66339), (66720, 66729),
  (67672, 67679), (67705, 67711), (67751, 67759), (67835, 67839), (67862, 67867), (68028, 68029),
  (68032, 68095), (68160, 68168), (68221, 68222), (68253, 68255), (68331, 68335), (68440, 68447),
  (68472, 68479), (68521, 68527), (68858, 68863), (68912, 69246), (69405, 69414), (69457, 69460),
  (69573, 69579), (69714, 69743), (69872, 69881), (69942, 69951), (70096, 70105), (70113, 70132),
  (70384, 70393), (70736, 70745), (70864, 70873), (71248, 71257), (71360, 71369), (71472, 71483),
  (71904, 71922), (72016, 72025), (72784, 72812), (73040, 73049), (73120, 73129), (73664, 73684),
  (92768, 92777), (92864, 92873), (93008, 93025), (93824, 93846), (119520, 119539),
  (119648, 119672), (120782, 120831), (123200, 123209), (123632, 123641), (125127, 125135),
  (125264, 125273), (126065, 126123), (126125, 126127), (126129, 126253), (126255, 126269),
  (127232, 127244), (130032, 130041)]

/-- Digits of any script, superscripts and enclosed digits included. -/
def digitRanges : Array (Nat × Nat) := #[
  (178, 179), (185, 185), (1632, 1641), (1776, 1785), (1984, 1993), (2406, 2415), (2534, 2543),
  (2662, 2671), (2790, 2799), (2918, 2927), (3046, 3055), (3174, 3183), (3302, 3311),
  (3430, 3439), (3558, 3567), (3664, 3673), (3792, 3801), (3872, 3881), (4160, 4169),
  (4240, 4249), (4969, 4977), (6112, 6121), (6160, 6169), (6470, 6479), (6608, 6618),
  (6784, 6809), (6992, 7001), (7088, 7097), (7232, 7241), (7248, 7257), (8304, 8304),
  (8308, 8313), (8320, 8329), (9312, 9320), (9332, 9340), (9352, 9360), (9450, 9450),
  (9461, 9469), (9471, 9471), (10102, 10110), (10112, 10120), (10122, 10130), (42528, 42537),
  (43216, 43225), (43264, 43273), (43472, 43481), (43504, 43513), (43600, 43609), (44016, 44025),
  (65296, 65305), (66720, 66729), (68160, 68163), (68912, 69224), (69714, 69722), (69734, 69743),
  (69872, 69881), (69942, 69951), (70096, 70105), (70384, 70393), (70736, 70745), (70864, 70873),
  (71248, 71257), (71360, 71369), (71472, 71481), (71904, 71913), (72016, 72025), (72784, 72793),
  (73040, 73049), (73120, 73129), (92768, 92777), (92864, 92873), (93008, 93017),
  (120782, 120831), (123200, 123209), (123632, 123641), (125264, 125273), (127232, 127242),
  (130032, 130041)]

/-- Separators, controls and other characters that are not printed as themselves. -/
def unprintableRanges : Array (Nat × Nat) := #[
  (128, 160), (173, 173), (1536, 1541), (1564, 1564), (1757, 1757), (1807, 1807), (2192, 2193),
  (2274, 2274), (5760, 5760), (6158, 6158), (8192, 8207), (8232, 8239), (8287, 8292),
  (8294, 8303), (12288, 12288), (55296, 63743), (65279, 65279), (65529, 65531), (69821, 69821),
  (69837, 69837), (78896, 78904), (113824, 113827), (119155, 119162), (917505, 917505),
  (917536, 917631), (983040, 1048573), (1048576, 1114109)]

/-- Capital letters: first and last of a run, the step between its members, and the distance to the
small letter. -/
def capitalRuns : Array (Nat × Nat × Nat × Int) := #[
  (192, 214, 1, 32), (216, 222, 1, 32), (256, 302, 2, 1), (306, 310, 2, 1), (313, 327, 2, 1),
  (330, 374, 2, 1), (376, 376, 1, -121), (377, 381, 2, 1), (385, 385, 1, 210), (386, 388, 2, 1),
  (390, 390, 1, 206), (391, 391, 1, 1), (393, 394, 1, 205), (395, 395, 1, 1), (398, 398, 1, 79),
  (399, 399, 1, 202), (400, 400, 1, 203), (401, 401, 1, 1), (403, 403, 1, 205),
  (404, 404, 1, 207), (406, 406, 1, 211), (407, 407, 1, 209), (408, 408, 1, 1),
  (412, 412, 1, 211), (413, 413, 1, 213), (415, 415, 1, 214), (416, 420, 2, 1),
  (422, 422, 1, 218), (423, 423, 1, 1), (425, 425, 1, 218), (428, 428, 1, 1), (430, 430, 1, 218),
  (431, 431, 1, 1), (433, 434, 1, 217), (435, 437, 2, 1), (439, 439, 1, 219), (440, 440, 1, 1),
  (444, 444, 1, 1), (452, 452, 1, 2), (453, 453, 1, 1), (455, 455, 1, 2), (456, 456, 1, 1),
  (458, 458, 1, 2), (459, 475, 2, 1), (478, 494, 2, 1), (497, 497, 1, 2), (498, 500, 2, 1),
  (502, 502, 1, -97), (503, 503, 1, -56), (504, 542, 2, 1), (544, 544, 1, -130),
  (546, 562, 2, 1), (570, 570, 1, 10795), (571, 571, 1, 1), (573, 573, 1, -163),
  (574, 574, 1, 10792), (577, 577, 1, 1), (579, 579, 1, -195), (580, 580, 1, 69),
  (581, 581, 1, 71), (582, 590, 2, 1), (880, 882, 2, 1), (886, 886, 1, 1), (895, 895, 1, 116),
  (902, 902, 1, 38), (904, 906, 1, 37), (908, 908, 1, 64), (910, 911, 1, 63), (913, 929, 1, 32),
  (931, 939, 1, 32), (975, 975, 1, 8), (984, 1006, 2, 1), (1012, 1012, 1, -60),
  (1015, 1015, 1, 1), (1017, 1017, 1, -7), (1018, 1018, 1, 1), (1021, 1023, 1, -130),
  (1024, 1039, 1, 80), (1040, 1071, 1, 32), (1120, 1152, 2, 1), (1162, 1214, 2, 1),
  (1216, 1216, 1, 15), (1217, 1229, 2, 1), (1232, 1326, 2, 1), (1329, 1366, 1, 48),
  (4256, 4293, 1, 7264), (4295, 4295, 1, 7264), (4301, 4301, 1, 7264), (5024, 5103, 1, 38864),
  (5104, 5109, 1, 8), (7312, 7354, 1, -3008), (7357, 7359, 1, -3008), (7680, 7828, 2, 1),
  (7838, 7838, 1, -7615), (7840, 7934, 2, 1), (7944, 7951, 1, -8), (7960, 7965, 1, -8),
  (7976, 7983, 1, -8), (7992, 7999, 1, -8), (8008, 8013, 1, -8), (8025, 8031, 2, -8),
  (8040, 8047, 1, -8), (8072, 8079, 1, -8), (8088, 8095, 1, -8), (8104, 8111, 1, -8),
  (8120, 8121, 1, -8), (8122, 8123, 1, -74), (8124, 8124, 1, -9), (8136, 8139, 1, -86),
  (8140, 8140, 1, -9), (8152, 8153, 1, -8), (8154, 8155, 1, -100), (8168, 8169, 1, -8),
  (8170, 8171, 1, -112), (8172, 8172, 1, -7), (8184, 8185, 1, -128), (8186, 8187, 1, -126),
  (8188, 8188, 1, -9), (8486, 8486, 1, -7517), (8490, 8490, 1, -8383), (8491, 8491, 1, -8262),
  (8498, 8498, 1, 28), (8544, 8559, 1, 16), (8579, 8579, 1, 1), (9398, 9423, 1, 26),
  (11264, 11311, 1, 48), (11360, 11360, 1, 1), (11362, 11362, 1, -10743),
  (11363, 11363, 1, -3814), (11364, 11364, 1, -10727), (11367, 11371, 2, 1),
  (11373, 11373, 1, -10780), (11374, 11374, 1, -10749), (11375, 11375, 1, -10783),
  (11376, 11376, 1, -10782), (11378, 11378, 1, 1), (11381, 11381, 1, 1),
  (11390, 11391, 1, -10815), (11392, 11490, 2, 1), (11499, 11501, 2, 1), (11506, 11506, 1, 1),
  (42560, 42604, 2, 1), (42624, 42650, 2, 1), (42786, 42798, 2, 1), (42802, 42862, 2, 1),
  (42873, 42875, 2, 1), (42877, 42877, 1, -35332), (42878, 42886, 2, 1), (42891, 42891, 1, 1),
  (42893, 42893, 1, -42280), (42896, 42898, 2, 1), (42902, 42920, 2, 1),
  (42922, 42922, 1, -42308), (42923, 42923, 1, -42319), (42924, 42924, 1, -42315),
  (42925, 42925, 1, -42305), (42926, 42926, 1, -42308), (42928, 42928, 1, -42258),
  (42929, 42929, 1, -42282), (42930, 42930, 1, -42261), (42931, 42931, 1, 928),
  (42932, 42946, 2, 1), (42948, 42948, 1, -48), (42949, 42949, 1, -42307),
  (42950, 42950, 1, -35384), (42951, 42953, 2, 1), (42960, 42960, 1, 1), (42966, 42968, 2, 1),
  (42997, 42997, 1, 1), (65313, 65338, 1, 32), (66560, 66599, 1, 40), (66736, 66771, 1, 40),
  (66928, 66938, 1, 39), (66940, 66954, 1, 39), (66956, 66962, 1, 39), (66964, 66965, 1, 39),
  (68736, 68786, 1, 64), (71840, 71871, 1, 32), (93760, 93791, 1, 32), (125184, 125217, 1, 34)]

end Graphing.Text
