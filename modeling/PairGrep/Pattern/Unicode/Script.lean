import PairGrep.Pattern.Unicode.Table

/-!
# Scripts

The properties `Script` and `Script_Extensions`. The second differs from the first on few code
points; for those it lists the scripts in which the character is used.
-/

namespace PairGrep.Pattern.Unicode

def scriptNames : List (String × Nat) :=
  [("common", 1),
   ("zyyy", 1),
   ("inherited", 2),
   ("qaai", 2),
   ("zinh", 2),
   ("adlam", 3),
   ("adlm", 3),
   ("ahom", 4),
   ("anatolianhieroglyphs", 5),
   ("hluw", 5),
   ("arab", 6),
   ("arabic", 6),
   ("armenian", 7),
   ("armn", 7),
   ("avestan", 8),
   ("avst", 8),
   ("bali", 9),
   ("balinese", 9),
   ("bamu", 10),
   ("bamum", 10),
   ("bass", 11),
   ("bassavah", 11),
   ("batak", 12),
   ("batk", 12),
   ("beng", 13),
   ("bengali", 13),
   ("bhaiksuki", 14),
   ("bhks", 14),
   ("bopo", 15),
   ("bopomofo", 15),
   ("brah", 16),
   ("brahmi", 16),
   ("brai", 17),
   ("braille", 17),
   ("bugi", 18),
   ("buginese", 18),
   ("buhd", 19),
   ("buhid", 19),
   ("canadianaboriginal", 20),
   ("cans", 20),
   ("cari", 21),
   ("carian", 21),
   ("aghb", 22),
   ("caucasianalbanian", 22),
   ("cakm", 23),
   ("chakma", 23),
   ("cham", 24),
   ("cher", 25),
   ("cherokee", 25),
   ("chorasmian", 26),
   ("chrs", 26),
   ("copt", 27),
   ("coptic", 27),
   ("qaac", 27),
   ("cuneiform", 28),
   ("xsux", 28),
   ("cprt", 29),
   ("cypriot", 29),
   ("cpmn", 30),
   ("cyprominoan", 30),
   ("cyrillic", 31),
   ("cyrl", 31),
   ("deseret", 32),
   ("dsrt", 32),
   ("deva", 33),
   ("devanagari", 33),
   ("diak", 34),
   ("divesakuru", 34),
   ("dogr", 35),
   ("dogra", 35),
   ("dupl", 36),
   ("duployan", 36),
   ("egyp", 37),
   ("egyptianhieroglyphs", 37),
   ("elba", 38),
   ("elbasan", 38),
   ("elym", 39),
   ("elymaic", 39),
   ("ethi", 40),
   ("ethiopic", 40),
   ("gara", 41),
   ("garay", 41),
   ("geor", 42),
   ("georgian", 42),
   ("glag", 43),
   ("glagolitic", 43),
   ("goth", 44),
   ("gothic", 44),
   ("gran", 45),
   ("grantha", 45),
   ("greek", 46),
   ("grek", 46),
   ("gujarati", 47),
   ("gujr", 47),
   ("gong", 48),
   ("gunjalagondi", 48),
   ("gurmukhi", 49),
   ("guru", 49),
   ("gukh", 50),
   ("gurungkhema", 50),
   ("han", 51),
   ("hani", 51),
   ("hang", 52),
   ("hangul", 52),
   ("hanifirohingya", 53),
   ("rohg", 53),
   ("hano", 54),
   ("hanunoo", 54),
   ("hatr", 55),
   ("hatran", 55),
   ("hebr", 56),
   ("hebrew", 56),
   ("hira", 57),
   ("hiragana", 57),
   ("armi", 58),
   ("imperialaramaic", 58),
   ("inscriptionalpahlavi", 59),
   ("phli", 59),
   ("inscriptionalparthian", 60),
   ("prti", 60),
   ("java", 61),
   ("javanese", 61),
   ("kaithi", 62),
   ("kthi", 62),
   ("kannada", 63),
   ("knda", 63),
   ("kana", 64),
   ("katakana", 64),
   ("kawi", 65),
   ("kali", 66),
   ("kayahli", 66),
   ("khar", 67),
   ("kharoshthi", 67),
   ("khitansmallscript", 68),
   ("kits", 68),
   ("khmer", 69),
   ("khmr", 69),
   ("khoj", 70),
   ("khojki", 70),
   ("khudawadi", 71),
   ("sind", 71),
   ("kiratrai", 72),
   ("krai", 72),
   ("lao", 73),
   ("laoo", 73),
   ("latin", 74),
   ("latn", 74),
   ("lepc", 75),
   ("lepcha", 75),
   ("limb", 76),
   ("limbu", 76),
   ("lina", 77),
   ("lineara", 77),
   ("linb", 78),
   ("linearb", 78),
   ("lisu", 79),
   ("lyci", 80),
   ("lycian", 80),
   ("lydi", 81),
   ("lydian", 81),
   ("mahajani", 82),
   ("mahj", 82),
   ("maka", 83),
   ("makasar", 83),
   ("malayalam", 84),
   ("mlym", 84),
   ("mand", 85),
   ("mandaic", 85),
   ("mani", 86),
   ("manichaean", 86),
   ("marc", 87),
   ("marchen", 87),
   ("gonm", 88),
   ("masaramgondi", 88),
   ("medefaidrin", 89),
   ("medf", 89),
   ("meeteimayek", 90),
   ("mtei", 90),
   ("mend", 91),
   ("mendekikakui", 91),
   ("merc", 92),
   ("meroiticcursive", 92),
   ("mero", 93),
   ("meroitichieroglyphs", 93),
   ("miao", 94),
   ("plrd", 94),
   ("modi", 95),
   ("mong", 96),
   ("mongolian", 96),
   ("mro", 97),
   ("mroo", 97),
   ("mult", 98),
   ("multani", 98),
   ("myanmar", 99),
   ("mymr", 99),
   ("nabataean", 100),
   ("nbat", 100),
   ("nagm", 101),
   ("nagmundari", 101),
   ("nand", 102),
   ("nandinagari", 102),
   ("newtailue", 103),
   ("talu", 103),
   ("newa", 104),
   ("nko", 105),
   ("nkoo", 105),
   ("nshu", 106),
   ("nushu", 106),
   ("hmnp", 107),
   ("nyiakengpuachuehmong", 107),
   ("ogam", 108),
   ("ogham", 108),
   ("olchiki", 109),
   ("olck", 109),
   ("olonal", 110),
   ("onao", 110),
   ("hung", 111),
   ("oldhungarian", 111),
   ("ital", 112),
   ("olditalic", 112),
   ("narb", 113),
   ("oldnortharabian", 113),
   ("oldpermic", 114),
   ("perm", 114),
   ("oldpersian", 115),
   ("xpeo", 115),
   ("oldsogdian", 116),
   ("sogo", 116),
   ("oldsoutharabian", 117),
   ("sarb", 117),
   ("oldturkic", 118),
   ("orkh", 118),
   ("olduyghur", 119),
   ("ougr", 119),
   ("oriya", 120),
   ("orya", 120),
   ("osage", 121),
   ("osge", 121),
   ("osma", 122),
   ("osmanya", 122),
   ("hmng", 123),
   ("pahawhhmong", 123),
   ("palm", 124),
   ("palmyrene", 124),
   ("pauc", 125),
   ("paucinhau", 125),
   ("phag", 126),
   ("phagspa", 126),
   ("phnx", 127),
   ("phoenician", 127),
   ("phlp", 128),
   ("psalterpahlavi", 128),
   ("rejang", 129),
   ("rjng", 129),
   ("runic", 130),
   ("runr", 130),
   ("samaritan", 131),
   ("samr", 131),
   ("saur", 132),
   ("saurashtra", 132),
   ("sharada", 133),
   ("shrd", 133),
   ("shavian", 134),
   ("shaw", 134),
   ("sidd", 135),
   ("siddham", 135),
   ("sgnw", 136),
   ("signwriting", 136),
   ("sinh", 137),
   ("sinhala", 137),
   ("sogd", 138),
   ("sogdian", 138),
   ("sora", 139),
   ("sorasompeng", 139),
   ("soyo", 140),
   ("soyombo", 140),
   ("sund", 141),
   ("sundanese", 141),
   ("sunu", 142),
   ("sunuwar", 142),
   ("sylo", 143),
   ("sylotinagri", 143),
   ("syrc", 144),
   ("syriac", 144),
   ("tagalog", 145),
   ("tglg", 145),
   ("tagb", 146),
   ("tagbanwa", 146),
   ("taile", 147),
   ("tale", 147),
   ("lana", 148),
   ("taitham", 148),
   ("taiviet", 149),
   ("tavt", 149),
   ("takr", 150),
   ("takri", 150),
   ("tamil", 151),
   ("taml", 151),
   ("tangsa", 152),
   ("tnsa", 152),
   ("tang", 153),
   ("tangut", 153),
   ("telu", 154),
   ("telugu", 154),
   ("thaa", 155),
   ("thaana", 155),
   ("thai", 156),
   ("tibetan", 157),
   ("tibt", 157),
   ("tfng", 158),
   ("tifinagh", 158),
   ("tirh", 159),
   ("tirhuta", 159),
   ("todhri", 160),
   ("todr", 160),
   ("toto", 161),
   ("tulutigalari", 162),
   ("tutg", 162),
   ("ugar", 163),
   ("ugaritic", 163),
   ("vai", 164),
   ("vaii", 164),
   ("vith", 165),
   ("vithkuqi", 165),
   ("wancho", 166),
   ("wcho", 166),
   ("wara", 167),
   ("warangciti", 167),
   ("yezi", 168),
   ("yezidi", 168),
   ("yi", 169),
   ("yiii", 169),
   ("zanabazarsquare", 170),
   ("zanb", 170)]

def scriptRuns : List String :=
  ["hBiKi6hmKi6hPhKihhvKihhlKi3hhKi_hhKiBuhHhKilhlvih0iQjOhkhhOhjgiOhkhhOhhgkOhhhhOhhhhOhjghOhhg",
   "hOh0ghOhfh7uOhw_Fkii_JlghnGhginShginjghYhXhgoYh7gkYhmgrmlhhmmhhmuhhmjhhmAhhhmqirm6ihmMjhhmCh",
   "QkughQkchgiQkjmQhbkShguJjbhgiJjjDkOhgiDkvghVi8giVihghQkrglm_ghmiglmLihhm9BhRiikBhvhiBh6tkght",
   "ogitigit2ghtnghthgjtkgitpgitigitkgothgktightlgit5giRhjghRhmgkRhigiRh2ghRhnghRhighRhighRhigiR",
   "hhghRhlgkRhigiRhjgjRhhgnRhkghRhhgnRhxgqPhjghPhpghPhjghPh2ghPhnghPhighPhlgiPhqghPhjghPhjgiPhh",
   "gvPhkgiPhsgnPhnghYjjghYjogiYjigiYj2ghYjnghYjighYjlgiYjpgiYjigiYjjgnYjjgkYjighYjlgiYjygqXkigh",
   "XkmgjXkjghXkkgjXkighXkhghXkigjXkigjXkjgjXksgkXklgjXkjghXkkgiXkhgmXkhguXk1glaktghakjghak3ghak",
   "wgiakpghakjghakkgnakighakjgiakhgiakkgiakqgnakpfhtghfhjghfh3ghfhqghfhlgifhpghfhjghfhkgnfhigmf",
   "highfhkgifhqghfhjgsUitghUijghUiThghUijghUimgkUiwgiUi6ghJkjghJkygjJk4ghJkpghJkhgiJkngjJkhgkJk",
   "mghJkhghJkogmJkqgiJkjgsckahgkhhck8gFhJiighJihghJilghJi4ghJihghJi3giJilghJihghJinghJiqgiJikgA",
   "hdkIighdkEhgkdkHhghdkEhghdkvghdknhkdkigFhDjAlKhGhghKhhglKhhgiKhLhhhKhkUhAoIhJighIhkgiIhnghIh",
   "hghIhkgiIhJhghIhkgiIhBhghIhkgiIhnghIhhghIhkgiIhvghIhZhghIhkgiIhDigiIhAhgjIh6gm5Wigi5mgi0A0Mj",
   "9gjCkLihjCkrgnRk2gpRkhWh1higpz0gsSktghSkjghSkigsFieigiFiqgmFiqgmAjihiAjhhhAj0gmAjZignAjLhgl0",
   "GigqMi_ghMisgkMisgkMihgjMisTk-giTklgrHjMhgkHj6gmHjrgjHjiFiAhy8giyiUkfhghUk9giUkrgmUkqgmUkugi",
   "i_gRhpNighpShNkAisUhgoskLiYhgjLivgjLijNjQh_rglKhLhgiKhjNkogoijhhithhinhkihhmihhjiihhglKiGhOh",
   "l_hKiRhOhlKikOhlKit_hKiGiOhhiAiKiAoOh2giOhmgiOhGhgiOhmgiOhoghOhhghOhhghOhhghOh_giOhVhghOhvgh",
   "OhugiOhmghOhzgiOhjghOhpghhsiihXighhrKihgihrKihhvghKitgjhBhgviBhgvhGhOhhhjKiihmKihh7KihhxKiJh",
   "hjgkha0g2hrg1hA9xAohUzgihAhghhJjLhAjKiAh7Ujgl7nKhGhghKhhglKhhgiekYhgnekiguekhIh3gpIhnghIhngh",
   "IhnghIhnghIhnghIhnghIhnghIhngh_AhheigChTh6ghThZigsThWmg6h1ThhhhThhh5ThpikUhihoThkhkghZhWigii",
   "ihiZhjhhAiaihiAijglvLhghUheighhwvAhhGhgphhAiwUh_ghhAiUh_hRiAiPhhhAiYihIlThAOmhAiThAQ0JlNEhgj",
   "JlXhgpPiQhElMpg0_AjqYigohChKiGjhjKiDigiKiighKihghKiog1KiuPkNhgjhqgmejYhgoEkGigoEksgmBhAhCiOh",
   "hhCihBkEhgrBkhUh9gjdhOighhhdhqgkdhiDj_gh4Xhgp4ugi4qgi4kDjAhVkDig4Vklai3gqIhmgiIhmgiIhmgpIhng",
   "hIhnghKiLhhhKipOhhKikhigk5QiaiOhgiaiqgmUhEdqgsUh3gkUhRhgEIoThOrgiThKjgGhKingsnlglYh6ghYhlghY",
   "hhghYhighYhighYhqmTjgwmLrhimQigimWhgnmhgAhmwiwhqgmiu_ihDhghhzghhkgkmlghmHkgihhghhAhKi6hmKi6h",
   "rAiqhhAiNhhiUh_gjUhmgiUhmgiUhmgiUhjgjhnghhngqhlgiOisghOi6ghOizghOiighOivgiOiugChOibjglhjgkhN",
   "hgjhpOhPighhtgjOhhgPhhNhihgCkQi9gj1Rhgvihh7gkQjEhgpQjjMh7glSjLhglDl-ghDlhTjEhgkTjugKhAhQiGkQ",
   "haj-giajqgmZjEhgkZjEhgkGhIhgo2Uhgr2hFlrghFlvghFlnghFlighFlrghFlvghFlnghFligjAlUhgsNiXpgpNi2g",
   "qNiog4KimghKiKhghKipgFi9mgi9hgh9Mhgh9igj9hgi9hah2ghahpcjAhEj_goEjpgQhXhzghXhiglXhlfj8gjfjhRi",
   "6glRihgAidiAhci4gkci0giciOhDikghDiiglDioghDijghDi9giDijgkDiqgnDipgnVjAhRjAhgAhWiHhgkWisgpoWh",
   "gjonch2gichobhzglbhoAkygnAkkgsAkngQiWjJigXhPjThgtPjThgnPjmVhIhgoVhqgmJhGhgjJh9goJhigQmm_ghIl",
   "KhghIljgiIligwmjgXhmkUjIhgoKkKhg2Xj6gGh68g0Hh3gpwOigkwEhgpwhehDigqehhgiLk5gnLkqgm3Vhgh3ygoSi",
   "HhgpFkAjghJk0grGiyghGiPhgehCjnghCjhghCjkghCjvghCjrgmHibhglHiqgmNhkghNhogiNhigiNh2ghNhnghNhig",
   "hNhlghihNhpgiNhigiNhjgiNhhgmNhhglNhngiNhngjNhlgrClqghClhgiClhghClGhghClqghClhgiClhghClkghClq",
   "ghCligoClig9IjcighIjlg-fkIigofkqgGlHkWhgiHkGhgChfiFigrfiqgmAjtgzWkahgmWkqgmDj0g8k7gikvgkk3gZ",
   "lDhchgEjHlTigsHlhChngiChhgiChoghChighCh-ghChigiChsgpChqgGiGjogiGjOhgiGjrg7KlIigoMkTigt0wdjZh",
   "gnBhqgWlOkChguOkqgmupghuNhghuugqu9gjXiAhgiXi2ghXiugJiYinghYiighYiMhgjYihghYiighYipgoYiqgmQhm",
   "ghQhighQhFhghQhighQhmgnQhqgWpTi5gnBixghBiJhgjBi9gViPihgvXkShgtXkh8a8gGj8Pjgh8lgr8EmgMSi-Djgt",
   "FhWChgqFhbcjgllHygZVmShahgGWhqZxgnBj_ghBjqgkBjiYkPighYkqgmr-girmgqbjGigqbjqghbjnghbj1glbjzgQ",
   "tIiahgGmZibigFjeiLigkeiZhgneixgAiZkhKjhThiEihgrThiguZkYflgoZkA4EiWugKhZkpgHXoAikghAinghAiigh",
   "AihZhfoAijgvZhhg9ZhjgiAihguAikgoKjMsgEIiEhLjglEhtgjEhpgnEhqgiEhkhkgcajhangmhUtgMiiOhgii3gphU",
   "jgchhWngqhHhgihehijhxiohiinh-ikhdhg1OhGigajh0gsh0gshXigph5gHkhVighhHighhigihhgihigihkghhsghh",
   "hghhnghhBighhkgihoghhnghh8ghhkghhlghhhgjhnghhUqgihEpgihShIkM0gvIklghIkvgQChKi_gmKimgVmLhnghL",
   "hxgiLhnghLhighLhlgl_ehgBh_hgQjLjNhgjLjugiLjqgkLjigAqBl_gxGlahglGlhgQuFjKhgWmOjLhgkOjhgAvIhng",
   "hIhkghIhighIhvghbiFmgibiwgJhjMigkjqgkjigR4hEigMihdhgCmmkghm7ghmighmhgimhghmqghmkghmhghmhgmmh",
   "gkmhghmhghmhghmjghmighmhgimhghmhghmhghmhghmhghmighmhgimkghmnghmkghmkghmhghmqghmxglmjghmlghmx",
   "gUhmigOohMhgkhEjgshvgihvghhvghhFhgqhOlgYhh6ZhhhigthMhgkhpgnhiguhmgakhY-gkhxgjhtgjhXjgkhfigmh",
   "sgkhhgvhsgkhYhgohqgmhIhgoh-gihsgkhigehhUqgshugihtgjhqglhYhgnhvgihrgmhpgnhTkghhGjgGAhThAXJhgA",
   "hThaBkgmThemgiThCUlguThRJngvThOzgCNiThewgCPhThLakglThADkgRCX1hhg-hAjgAkiQngQQfl"]

/-- The lists of scripts that extensions give to characters; the empty list leaves the script. -/
def extensionLists : List (List Nat) :=
  [[],
   [3, 6, 53, 85, 86, 119, 128, 138, 144],
   [3, 6, 53, 105, 144, 155, 168],
   [6, 27],
   [6, 53],
   [6, 53, 105, 144, 155, 168],
   [6, 105],
   [6, 144],
   [6, 144, 155],
   [6, 155],
   [6, 155, 168],
   [13],
   [13, 23, 143],
   [13, 33],
   [13, 33, 35, 45, 47, 48, 49, 63, 71, 76, 82, 84, 88, 102, 120, 137, 143, 150, 151, 154, 159],
   [13, 33, 35, 45, 47, 48, 49, 63, 71, 82, 84, 88, 102, 120, 137, 143, 150, 151, 154, 159],
   [13, 33, 45, 47, 49, 63, 74, 84, 120, 133, 151, 154, 159],
   [13, 33, 45, 47, 49, 63, 74, 84, 120, 151, 154, 159],
   [13, 33, 45, 63],
   [13, 33, 45, 63, 102, 120, 154, 159],
   [15, 51],
   [15, 51, 52, 57, 64],
   [15, 51, 52, 57, 64, 169],
   [18, 61],
   [19, 54, 145, 146],
   [23, 99, 147],
   [29, 30, 78],
   [29, 77, 78],
   [29, 78],
   [31, 43],
   [31, 74],
   [31, 114],
   [31, 144],
   [33],
   [33, 35, 47, 49, 62, 63, 70, 71, 82, 84, 95, 102, 150, 159],
   [33, 35, 47, 49, 62, 63, 70, 71, 82, 95, 102, 150, 159],
   [33, 35, 47, 49, 62, 70, 71, 82, 95, 150, 159],
   [33, 35, 62, 82],
   [33, 45],
   [33, 45, 63],
   [33, 45, 74],
   [33, 63, 84, 120, 151, 154],
   [33, 102],
   [33, 133],
   [33, 151],
   [36],
   [42, 74],
   [45, 151],
   [46],
   [47, 70],
   [49, 98],
   [51],
   [51, 57, 64],
   [51, 74],
   [57, 64],
   [63, 102],
   [66, 74, 99],
   [74],
   [74, 96],
   [86, 119],
   [96, 126],
   [102],
   [144]]

def extensionRuns : List String :=
  ["gC6QhhgiQhhg9ZhtgTo_h9h-i9hgEslhgulhohgiihgAhhhgqnrgqqqgmnhgDjkhgczwhxhgxvhuhFhqgWjsqgWjShqg",
   "WjRhqgWnPhugSnXhqgQ65qgRlOhhgZRh4igLmchighchhgKGhyhBhhyhGhhBhhtiLhhthLhhJhhBhhLhiBhiLhhthBhn",
   "KhhthBhithBhkzhGhhHhhtirhGhidhhgFmQhigWhAhhghehhgUxahhgAmIhhgSKj9hgdt2i1hgiThhgh2qgh1h2o1kgq",
   "0kgi1hWhlgh1hgkUhiThigZiWhkgjWhhgai2hWhhgTkThwgAhThEhgchThIhgYhThRhgvThsgThThhgYiTh5gqThlgAj",
   "Th_gQT89hgQkVhogIpChjDhjEhkgXlthghMhhgahYhhgAl3hgOb0migSlphgqphgHi1igao2lgqWhhgNhWhigAr6i8hg",
   "k7Nhgj8pgAtj8gWfhbhhgOAiPhhghPhhgXhPhigTEjPhighPhhgMGHhNhkgcVlThygeWnThigOND-"]

def script? (name : String) : Option CharSet :=
  (scriptNames.lookup name).map fun n => classified scriptRuns [n]

def scriptExtension? (name : String) : Option CharSet :=
  (scriptNames.lookup name).map fun n =>
    let listed := extensionLists.zipIdx.filter (fun p => p.1.contains n)
    let added := classified extensionRuns (listed.map (·.2))
    let unlisted := classified extensionRuns [0]
    ((classified scriptRuns [n]).inter unlisted).union added

end PairGrep.Pattern.Unicode
