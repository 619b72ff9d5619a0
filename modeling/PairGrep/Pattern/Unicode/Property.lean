import PairGrep.Pattern.Unicode.Table

/-!
# Binary properties

The properties that a code point has or lacks, and the names of the properties with values of other
kinds, which are known but do not denote a set of characters on their own.
-/

namespace PairGrep.Pattern.Unicode

def asciiHexDigitRuns : List String :=
  ["Qhqnm6m"]

def alphabeticRuns : List String :=
  ["Bi6m6Phhqhkhl3h_hKuksulnhhhWihKhlhiikhhmhhjhhh0hTihLkoGlhGhihmJhHhuhhhihihho7kk9rlYhhnuGjhok",
   "okjqjihwQhtFj4Bhpikhl4izz5nrl4hmxKhqsjnmMihwhjkvtzhoiii2hnhhjkjoiiiihhohkihlsiqhkjhmkii2hnhi",
   "hihiklkiiikhnkhhxmrjhphjh2hnhihljphjhijhvk1kkjhoiii2hnhihljoiiiipikihlthwihmjjhkjihhhijijjjs",
   "kljjhjjhmhIhthjh3hwjohjhjoihjihik8khohjh3hqhljohjhjoimihktjsthjhJhiohjhjhhlknl2mhjhyj4hphhin",
   "omhhhoyitahlnmhThihhhlh4hhhzhjilhhmhukAhhfhohEhkzkwhEhDiXhhhilwAiqkiGhhhlhiLhhNqhkinhhhkiJhh",
   "kiBhhkinhhhkivhZhhkiDiFhwwWiimjMzixh6lLijrn0r1s0sthjhisUhizuhkhDiZinLhlGiq_hskp3-ilrMhk6Wh8k",
   "fhi0Shh3irjRhUhhvhoThKhikqMhhruXh2jqEhirlLhijJhkhmhijhlAmHhurWoimiGhimiohhhhhhh_iVhhnhhjjhnj",
   "kimktljhnUjhthwtFjhkhiqhhjlmhhhhhhkhrikllkhxJhN5UhWYhFnmkjisGhhhlhiYhnhw3pnhnhnhnhnhnhnhnhAh",
   "PhhVuj5pnlilkWimjhaihklLhheixAhQhwAwAOmAiNU1DiOhiNojwqi0PhlojRjHhpiHjiDiiihhho10hBh4UhsEihhM",
   "hmjhhjqBhlDht9jThhsvhwwqlhXhpuy3jFihhhh4jiwikrmimimpnhnhLhhumbj1Edqs3kRhEIoOriKjGhnsllshthlh",
   "hhihihMjBhLryAiiWhIhsUjlhHkEh6m6rZijmimimijDhsh6hzhihviuChbjFiVhLo9jRhPhAht-lLhl-iEhkohlKhek",
   "yEhkEhkIhoUhsrhvhnhihrhvhnhijUhsXpp2qo4mhKhhpFimihhMhhijhi3q3p_Bizhiq2q6GiYhmiAikhilohjh9Kh9",
   "j9Dhoh87Whq2qztyOjJiXhThtThtIhCh8p3anKhhijiwjbh9qho2KhyOh173pGiLhlqZhpht53ThxkoDhjhpAihkpiqh",
   "hhDhyhChihmkehnhhhkhvhqnZh3khoiii2hnhihljoiiiijhmhln8qhhihhGhhknhihhkhihhhhhhMhCihjhk0j-Ciii",
   "hhYlWhin5mChfhhhjhbhWhihHi7iu1nZlZhHjAi_oihiohih-hiiiikdioiOhimhhhi7ThiqxIilhyJiHmBh_phNhhnh",
   "hRh-i2huJinhihMhjhhihjhhii4mhihFhhihkhhHq3pxhJhjjPjhPia8GjPjxEmMSiBjvQBhxm5bcjlHyZVm-sjTWhZx",
   "n_xPix-yQhwk_1lzQtNhTmAiAkLikZhnxAiihhsiuYfloWGhKhpHXokhnhihDpvh9jihukoMsEIiLjltjpnqkhBblVih",
   "HihiihiiikhshhhnhBihkiohnh8hkhlhhjnhUqi5h5h_h5h_h5h_h5h_h5hoUZh_mmVmnhxinhihllehBhhQjNhqnwhB",
   "q-yMhEv8En-ihPvnhkhihvhFmbhEijhjhUFhkh7hihhihhqhkhhhhmhkhhhhhhjhihhihhhhhhhhhhihhikhnhkhkhhh",
   "qhxljhlhxUz6m6m6WTjAXJhAhaBkmemiCUluRJnvOzCNiewCPhLaklADk"]

def bidiControlRuns : List String :=
  ["cQhhRPmi6lXhk"]

def bidiMirroredRuns : List String :=
  ["Ihiyhhh8hhh9hhhNhhvheTjkdahicMiiqiWhiuiRlhAmkjmjhjijkhkhhhhkplhhylkpihhhoi_iklhpiizlipliik4i",
   "wok0inidBhuKihikhihjlkljjuTs2imhuohnmjhklhiilkhhjiiqmiiszhkihhhihhklimj4irikkhiiikLhiohIhlhh",
   "hjlljkhjlhhAohDwkjihiuiiqLhoLtqiodRThmliCliyhhh8hhh9hhhhihiXbVhhZhhZhhZhhZhh"]

def caseIgnorableRuns : List String :=
  ["HhhmhrhDhhhhHihkhhhkhiiXvAmkikhpihhbnnPmhlhRhNhhhhihihhMhhrmqrhhDhhq1whFjohqhkBhhhh-7birahrk",
   "hih44LhjMhhnilpJhahXhhhhkokhjnqithvhahhkkoh0i6hiiZhhkikiijjh-ijhriZhhklhikh0i2mhhahhihhkohni",
   "ri-hdhhshShhjhXhhhjljhkniri9hahhihmhli0i8iZhikkoh0i9hIihnjhhaihinrpCjhipphhnJii7hhhhhXhuhlhi",
   "lrhEhphGjkhmhiii5ikjwkthiimhvheihAzjS9j9i-i-iAiihnohirjhlhNhlThhBiiChhWjjkiphmjbmiihahhhnhhh",
   "hiomqihHhho_RhkQhhhlhhlhIhpsiAhkiihjYhhhijhhjahoiiAimSijhthnkhmhjiShfhthChFjdthhjrjtjtjtislo",
   "iqhihilRhlhqhhthwtThBhLciiRjjdjhvhAjAhPhhVuhEhkjllhdimdijWY7hCHhmOohCjkhqhh8kQiiuChOih3jHjjj",
   "iohjhkh5ilhXki6ythGho5rOhjQhhikiixh1iCimiiiishohDhhrhThhhjiilihh7huilihhEjlpjZjhihkhQZzhTkxd",
   "xwjhswChhihJlhnhmhrhDhhhhPhhNhiDih1jBwhCnhVklFAhmhKhhpGyjhilkIhjkhFlidxkGhh6lhhbpiPikGirRhkb",
   "jhWhvJhhiiqjRhkiiihkhqhShjEhlhoehhsiUhpqkihfijihhimhihdkhjo1iZhijhFhnjlGimthhhhhuiVioijhh3hU",
   "imhhkihiOnkmihi7iVioihhiKjhhhimhhFjjikhlDophiAoihhkhQkkiikhAhqIhmikohpmijOhthiWsnhmhhSi2inhi",
   "hiajmjhhihnhhIiijhhhbqiriUhllhhh3hVGlxmvIGrsjjAOilbhnpkcvjIhiCvhfhxAiihiLAwkhnhieEjihkcSkOhi",
   "3Axjpwin-kUkjbdhXhkShohuh2lhvQKhnhxinhihllehBhhAluQrhdhkbvleniA3nNjoPVilBAD4h-AjAkQn"]

def casedRuns : List String :=
  ["Bi6m6Phhqhkhl3h_hDmhkkQmhEhni-lAjhKhkiiikhhmhhjhhh0hTihLkoGlhGhpJhXYiGhhhlhiLhhkA1WiimCEirlL",
   "hijAiAmAiWoimiGhimiohhhhhhh_iVhhnhhjjhnjkimktljhnUjhthwtFjhkhiqhhjlmhhhhhhkhmkhikllkhxAhjiR5",
   "UhWYhFnmkjisGhhhlhSI-Ohy-EkGjjkhehiihhho1lhjV5LhhumQiAaznslJAh6m6FFhQiAjEhkEhUjrhvhnhihrhvhn",
   "hiDuhijhKhhpFGhThtThdi2q2aYiAiAL1AiAM5VihHihiihiiikhshhhnhBihkiohnh8hkhlhhjnhUqi5h5h_h5h_h5h",
   "_h5h_h5hoUZhqh0mmFoehSEiEiMfh6m6m6"]

def changesWhenCasefoldedRuns : List String :=
  ["Bi6aihq3hoAhhhhhhhhhhhhhhhhhhhhhhhhhhhhhhhhhhhhhhhhhhhhhhhhhhhhhhhhihhhhhhhhhhhhhhhhihhhhhhh",
   "hhhhhhhhhhhhhhhhhhhhhhhhhhhhhhhhhhhhhhihhhhhhhihhhihjikhihjjihihhhhhihhihhihjhhhijhnihihihhh",
   "hhhhhhhhhhhhhihhhhhhhhhhhhhhhhhiihhhjhhhhhhhhhhhhhhhhhhhhhhhhhhhhhhhhhhhhhhhhhhhhhhhhhhhhhhh",
   "hhhnihiihhkhhhhhhhhWnhKhhhhjhohmhhjhhhihxhp2hsjjihhhhhhhhhhhhhhhhhhhhhhhhhiiihhhiiThQhhhhhhh",
   "hhhhhhhhhhhhhhhhhhhhhhhhhhhphhhhhhhhhhhhhhhhhhhhhhhhhhhhhhhhhhhhhhhhhhhhhhhhhhhhhhihhhhhhhhh",
   "hhhihhhhhhhhhhhhhhhhhhhhhhhhhhhhhhhhhhhhhhhhhhhhhhhhhhhhhhhhhhhhhhhhhhhhhhhhhhhhhhhhhhhhhhhh",
   "hhhhhhhiGhQhhYYiGhhhlhK5mCEiqmLhijAqhhhhhhhhhhhhhhhhhhhhhhhhhhhhhhhhhhhhhhhhhhhhhhhhhhhhhhhh",
   "hhhhhhhhhhhhhhhhhhhhhhhhhhhhhhhhhhhhhhhhhhhhhhhhhhhhhhhhhhhhhhhhhhhhhhhhhhhhhhhhhhhhhhhhhhhh",
   "hliihhhhhhhhhhhhhhhhhhhhhhhhhhhhhhhhhhhhhhhhhhhhhhhhhhhhhhhhhhhhhhhhhhhhhhhhhhhhhhhhhhhhhhhh",
   "hhhhhhhhhpoomqoooomrhhhhhhhoowQhijimljimrkslljimJphjimhNhwzhS56QZhQhQhhhjihhhhhhkhhihojhhhhh",
   "hhhhhhhhhhhhhhhhhhhhhhhhhhhhhhhhhhhhhhhhhhhhhhhhhhhhhhhhhhhhhhhhhhhhhhhhhhhhhhhhhhhhhhhhhhhh",
   "hohhhkhNK-hhhhhhhhhhhhhhhhhhhhhhhhhhhhhhhhhhhhhhhhhhhhhzhhhhhhhhhhhhhhhhhhhhhhhhhhhHkhhhhhhh",
   "hhhhhhjhhhhhhhhhhhhhhhhhhhhhhhhhhhhhhhhhhhhhhhhhhhhhhhhhhhhhhhhhhhhhqhhhhihhhhhhhhkhhhihhhjh",
   "hhhhhhhhhhhhhhhhhhhlhlhhhhhhhhhhhhhhhkhhhijhlhhhhhhh4ha7QiAaznslJAh6FGhIhIkEhckrhvhnhiKXhThd",
   "k2aZiAhAM1AhAV-Ch"]

def changesWhenCasemappedRuns : List String :=
  ["Bi6m6ahhq3h_hAihUihthuiuiihhkdihym7hihhhijihhhihlihhiihnhihhijmlhqiGlhKhkiijjhhmhhjhhh0hPhjB",
   "hhlhFkoGlhGhqHhYYiGhhhlhiLhijA1WiimCEirlLhijZlhjhwhRjckihhWjimiGhimiohhhhhhh_iVhhnhhjjhnjkim",
   "ktljhnJphjimh7hxAhjiR5UhWYhRjhihinGjnkjisGhhhlhSI-Ohy8Gkuiehpvjjilh5h-iikn4ic6h8QiAaznslJAh6",
   "m6FFhQiAjEhkEhUjrhvhnhihrhvhnhiDWhThtThdi2q2aYiAiAL1AiAU-Ei"]

def changesWhenLowercasedRuns : List String :=
  ["Bi6Fj3hnBhhhhhhhhhhhhhhhhhhhhhhhhhhhhhhhhhhhhhhhhhhhhhhhhhhhhhhhhihhhhhhhhhhhhhhhihhhhhhhhhh",
   "hhhhhhhhhhhhhhhhhhhhhhhhhhhhhhhhhhhhihhhhjihhhihjikhihjjihihhhhhihhihhihjhhhijhnihihihhhhhhh",
   "hhhhhhhhhihhhhhhhhhhhhhhhhhiihhhjhhhhhhhhhhhhhhhhhhhhhhhhhhhhhhhhhhhhhhhhhhhhhhhhhhhhhhhhhhn",
   "ihiihhkhhhhhhhhBphhhjhohmhhjhhhihxhpDhhohhhhhhhhhhhhhhhhhhhhhhhlhihhiiThQhhhhhhhhhhhhhhhhhhh",
   "hhhhhhhhhhhhhhhphhhhhhhhhhhhhhhhhhhhhhhhhhhhhhhhhhhhhhhhhhhhhhhhhhhhhhihhhhhhhhhhhhihhhhhhhh",
   "hhhhhhhhhhhhhhhhhhhhhhhhhhhhhhhhhhhhhhhhhhhhhhhhhhhhhhhhhhhhhhhhhhhhhhhhhhhhhhhhhhhhhhhiGhJa",
   "iGhhhlhS2WiTEihmLhijAqhhhhhhhhhhhhhhhhhhhhhhhhhhhhhhhhhhhhhhhhhhhhhhhhhhhhhhhhhhhhhhhhhhhhhh",
   "hhhhhhhhhhhhhhhhhhhhhhhhhhhhhhhhhhhhhhhhhhhhhhhhhhhhhhhhhhhhhhhhhhhhhhhhhhhhhhhphhhhhhhhhhhh",
   "hhhhhhhhhhhhhhhhhhhhhhhhhhhhhhhhhhhhhhhhhhhhhhhhhhhhhhhhhhhhhhhhhhhhhhhhhhhhhhhhhhhhhpoomqoo",
   "oomrhhhhhhhoo4oooooolrlrkslrlJphjimhNhwzhS56QZhQhQhhhjihhhhhhkhhihojhhhhhhhhhhhhhhhhhhhhhhhh",
   "hhhhhhhhhhhhhhhhhhhhhhhhhhhhhhhhhhhhhhhhhhhhhhhhhhhhhhhhhhhhhhhhhhhhhhhhhhohhhkhNK-hhhhhhhhh",
   "hhhhhhhhhhhhhhhhhhhhhhhhhhhhhhhhhhhhzhhhhhhhhhhhhhhhhhhhhhhhhhhhHkhhhhhhhhhhhhhjhhhhhhhhhhhh",
   "hhhhhhhhhhhhhhhhhhhhhhhhhhhhhhhhhhhhhhhhhhhhhhhhhqhhhhihhhhhhhhkhhhihhhjhhhhhhhhhhhhhhhhhhhh",
   "lhlhhhhhhhhhhhhhhhkhhhijhlhhhhhhh4hLZ16FGhIhIkEhckrhvhnhiKXhThdk2aZiAhAM1AhAV-Ch"]

def changesWhenTitlecasedRuns : List String :=
  ["Bj6ahhJh4hohhhhhhhhhhhhhhhhhhhhhhhhhhhhhhhhhhhhhhhhhhhhhhhhhhhhhhhhihhhhhhhhhhhhhhihhhhhhhhh",
   "hhhhhhhhhhhhhhhhhhhhhhhhhhhhhhhhhhhhhihhhhjihhhihjhlhihjijhihhhhhihkhihjhhhihjhhhkhhihihhhhh",
   "hhhhhhhhhhhhihhhhhhhhhhhhhhhhhjhhhhjhhhhhhhhhhhhhhhhhhhhhhhhhhhhhhhhhhhhhhhjhhhhhhhhhhhhhhhh",
   "hohiihhkhhhhhhhhmhihhhijihhhihlihhiihnhihhijmlhqiGlhLhhhhjhjjyh7Dhhijjhhhhhhhhhhhhhhhhhhhhhh",
   "hlhhihihUhQhhhhhhhhhhhhhhhhhhhhhhhhhhhhhhhhhhhphhhhhhhhhhhhhhhhhhhhhhhhhhhhhhhhhhhhhhhhhhhhh",
   "hhhhhhhhihhhhhhhhhhhhihhhhhhhhhhhhhhhhhhhhhhhhhhhhhhhhhhhhhhhhhhhhhhhhhhhhhhhhhhhhhhhhhhhhhh",
   "hhhhhhhhhhhhhhhhhhhhhhhhhhRhHhQTjmCEiphhOnhjhwhSjhhhhhhhhhhhhhhhhhhhhhhhhhhhhhhhhhhhhhhhhhhh",
   "hhhhhhhhhhhhhhhhhhhhhhhhhhhhhhhhhhhhhhhhhhhhhhhhhhhhhhhhhhhhhhhhhhhhhhhhhhhhhhhhhhhhhhhhhhhh",
   "hhhhhhhhhhhhhnlhhhhhhhhhhhhhhhhhhhhhhhhhhhhhhhhhhhhhhhhhhhhhhhhhhhhhhhhhhhhhhhhhhhhhhhhhhhhh",
   "hhhhhhhhhhhhhhhhhpomqoooomqoooouioooooolhimhjjhiokiiooqjhiWqhBhwkhL66GahQhhhjihhhhhhmhihqhhh",
   "hhhhhhhhhhhhhhhhhhhhhhhhhhhhhhhhhhhhhhhhhhhhhhhhhhhhhhhhhhhhhhhhhhhhhhhhhhhhhhhhhhhhhhhhhhhh",
   "hhhhohhhkhsGhhhlhTI-hhhhhhhhhhhhhhhhhhhhhhhhhhhhhhhhhhhhhhhhhhhhhzhhhhhhhhhhhhhhhhhhhhhhhhhh",
   "hHkhhhhhhhhhhhhhjhhhhhhhhhhhhhhhhhhhhhhhhhhhhhhhhhhhhhhhhhhhhhhhhhhhhhhhhhhhhhqhhhihhhhhhhhh",
   "khkhhiihhhhhhhhhhhhhhhhhhhrhhhhhhhhhhhhhhhkhhhihjhlhhhhh6hc6h8QiAaznslJBh6NGhIhIkEhbkrhvhnhi",
   "DYhThdj2aZiAhAM1AhCV-Ch"]

def changesWhenUppercasedRuns : List String :=
  ["Bj6ahhJh4hohhhhhhhhhhhhhhhhhhhhhhhhhhhhhhhhhhhhhhhhhhhhhhhhhhhhhhhhihhhhhhhhhhhhhhihhhhhhhhh",
   "hhhhhhhhhhhhhhhhhhhhhhhhhhhhhhhhhhhhhihhhhjihhhihjhlhihjijhihhhhhihkhihjhhhihjhhhlihihihhhhh",
   "hhhhhhhhhhihhhhhhhhhhhhhhhhhihihhjhhhhhhhhhhhhhhhhhhhhhhhhhhhhhhhhhhhhhhhjhhhhhhhhhhhhhhhhho",
   "hiihhkhhhhhhhhmhihhhijihhhihlihhiihnhihhijmlhqiGlhLhhhhjhjjyh7Dhhijjhhhhhhhhhhhhhhhhhhhhhhhl",
   "hhihihUhQhhhhhhhhhhhhhhhhhhhhhhhhhhhhhhhhhhhphhhhhhhhhhhhhhhhhhhhhhhhhhhhhhhhhhhhhhhhhhhhhhh",
   "hhhhhhihhhhhhhhhhhhihhhhhhhhhhhhhhhhhhhhhhhhhhhhhhhhhhhhhhhhhhhhhhhhhhhhhhhhhhhhhhhhhhhhhhhh",
   "hhhhhhhhhhhhhhhhhhhhhhhhRhHhIaiLhijY3mCEiphhOnhjhwhSjhhhhhhhhhhhhhhhhhhhhhhhhhhhhhhhhhhhhhhh",
   "hhhhhhhhhhhhhhhhhhhhhhhhhhhhhhhhhhhhhhhhhhhhhhhhhhhhhhhhhhhhhhhhhhhhhhhhhhhhhhhhhhhhhhhhhhhh",
   "hhhhhhhhhhhhhhhhhnlhhhhhhhhhhhhhhhhhhhhhhhhhhhhhhhhhhhhhhhhhhhhhhhhhhhhhhhhhhhhhhhhhhhhhhhhh",
   "hhhhhhhhhhhhhhhhhhhhhpomqoooomqoooouiVhhikhhhjjhikhjkiiooqjhikhRqhBhwkhL66GahQhhhjihhhhhhmhi",
   "hqhhhhhhhhhhhhhhhhhhhhhhhhhhhhhhhhhhhhhhhhhhhhhhhhhhhhhhhhhhhhhhhhhhhhhhhhhhhhhhhhhhhhhhhhhh",
   "hhhhhhhhhohhhkhsGhhhlhTI-hhhhhhhhhhhhhhhhhhhhhhhhhhhhhhhhhhhhhhhhhhhhhzhhhhhhhhhhhhhhhhhhhhh",
   "hhhhhhHkhhhhhhhhhhhhhjhhhhhhhhhhhhhhhhhhhhhhhhhhhhhhhhhhhhhhhhhhhhhhhhhhhhhhhhhhhhhqhhhihhhh",
   "hhhhhkhkhhiihhhhhhhhhhhhhhhhhhhrhhhhhhhhhhhhhhhkhhhihjhlhhhhh6hc6h8QiAaznslJBh6NGhIhIkEhbkrh",
   "vhnhiDYhThdj2aZiAhAM1AhCV-Ch"]

def dashRuns : List String :=
  ["NhhcKhhThhBSjhFAhhJAimdhhHhhvhGshEAjhih_ikh8hethzhPjhQMThiFhhqhJlhfcjh"]

def defaultIgnorableCodePointRuns : List String :=
  ["NlhB1hM2hCaiiTShiVilbfhl6lRhwUHkhbEThwPnhAlhPipHFPhkPGloFUL4AAk"]

def deprecatedRuns : List String :=
  ["JqhJJhhDIihhhJBiiFGimZ1iWGX7h"]

def diacriticRuns : List String :=
  ["eihhhHihmhkhiiXvfkholmxikhpidnlRmhXhxh7hhhihhGkokiGkikijjDi7birahrChiejoJhqw8dhhwhjk8hKihwhO",
   "jhwhOjhwhPhjchhwhnhXjhOjhwhOjhwhNjiwhcjhcjmhhLjhtlLii7hhhhhkiCijhiehhQjhhiIhikl5nhhqiB2jU9iT",
   "lrphbqjZpoihQhvirIjhvhGhpWhiKkiAimSi5khmhijShfhZisFhrdthhjrjtjtjtiQHjjdphavmJjkfihSL9hsihh8i",
   "SiiuChGjjNjiKmh7yZhkEhhfihshEhhVkjBikThhEjlpjAkiQZzhB4wOohhhPhhNhiDihc3hfEhmhKhhpK5ibxmVujGi",
   "rRhkAmhJhhIiiYjiehhMihpjIjiSliRihwh4njlNmhjhbjibniejhWjiTjhNoiCoikhckhTihyhRihFthCohhiRihPVl",
   "vaUtlbhnYChxQiiefvkhnhiBYnOhi3Axjjmooin-kCUjehCmnXrhdhkAPhnNjjhj"]

def emojiRuns : List String :=
  ["DhhmhlqPjhkhNcnhshYmh2haimviPrishGlh5rkjHmhHniqhphahkhlphihiiihkhihhiihjhjiojlhhhlsriihhihhy",
   "hiiymhhhijilhiikiriliihlihhhi0ilmhkihkhihimhhihhhhhmhjhmhqivhihkhhhkjhhriQhjphuhuhUriPujziTh",
   "hkhaGhhshZyhhhKLPjhKmhAlisiuhiqLi6hi3h0hip1iOlChiQjiihjiTiijhHohfhrmh4niioshikihkitiihoiphlj",
   "sjojihhhkhmhjhmWiQhGiloijkqjhhijhiqDnskhboPhhqhZlQjtjpnOhhnoukpnp"]

def emojiComponentRuns : List String :=
  ["DhhmhlqTenhVmhLJXhhWech6bvlQNhkMTB4Aj"]

def emojiModifierRuns : List String :=
  ["bfcjl"]

def emojiModifierBaseRuns : List String :=
  ["dQphbmhwkXDTjhchjihijVjiir1zjhkjhjnhhh4hJmikh1hkiOljjlTihwjphrhfxhihoomhpqijYhhdhihihhxjhtFn",
   "jKhp"]

def emojiPresentationRuns : List String :=
  ["aYoiNmkjhihJwi1iShsLhhzhthoixiliohlh1hnihhkhihnhki8hDhhhhkjhhdhj4huhb6iThhkhOFRjhKmhelhiqLi6",
   "hh4h0hilhj1iOlBhsphGih2sLhklsxjhjHihhhblifhtkh4yh6ithWiViQhGimhjjijkkrinpDnskhboPhhqhZlQjtjp",
   "nOhhnoukpnp"]

def extendedPictographicRuns : List String :=
  ["JlhkhNcnhshYmh2haimviPrishfihGih5rkjHmhHniqhphahkhmhshSjqWjirhhhhmhjhmhqivhihkhhhkjhhrlNhjph",
   "uhuhUriPujziThhkhaGhhshZyhhhGLPjAotj_hchmsiuhiqyZh7vqh0hiphkpStlepoKoQhAkUjsViLhskYhoqmIho-S",
   "isPhhqhZtAoe_"]

def extenderRuns : List String :=
  ["XlhYwiO7hZtha6hQ3hfjhDKihYhhDzhOshEihJckhLhlHjidijWY7hWPhhC-h2hJkhMjh1ibD1hQAiiaeihIzjPGhhJF",
   "0icEhihhYK8iGAij"]

def graphemeBaseRuns : List String :=
  ["AhfiBhthSyQjoimknhhh0hAnnGlhGhiShijOhhhhihihp7kmxqrhhOh1whFjohmiihkAhihh-9ZirhuLhpnj4khphjhn",
   "vh5lhhrl_xKhZhXhhhhkokhjnqi9hihoiii2hnhhjkjhhimiiihhtihjk4lhhmkii2hnhihihikj4khhnqijhhshhphj",
   "h2hnhihljkohhijhviksnhoihoiii2hnhihljhihmiiivihjkyrhhmjjhkjihhhijijjjslhhijjhjjh11mjhohjh3hw",
   "jhjkzjihiikqnqhrhjh3hqhljihihiiihixihikqhjurhjhJhihhiljhjhikjhqk6iihyj4hphhinpimnnqijsQhhiro",
   "otFhihhhlh4hhhqhiphilhhpqikAh4i7hhhhhuhEhyhlhilRhohmhtFhNhkhmhiii5ikjwkthiimhvhIhhhlhiZrhkin",
   "hhhkiJhhkiBhhkinhhhkivhZhhkiDil9j6mWiimid0jZinyjhpzijpyuthjvUhihnohirpjqmqmrlqmZinliChhhlGiq",
   "_kkijkihmnhjKhilrMhk6mrjZhiijYhhhphhiomtqmqmuWiQhnhhlhqh9psiAhkiihjYhhhijhhjioQhoilvjehlLhir",
   "rhthnkhmhjihlAmAiWoimiGhimiohhhhhhh_iVhhvhuimhzijhphrl4nRhwii7htjBhfhMkka02r1UYhiAhhYqjilNhh",
   "hlhiYhniv3pnhnhnhnhnhnhnhnBheiCh6hZisWm6ahmwhWikFjlLhheihWipQhhNT8jXhpcq0PhkhqAhiQiimoOmiihh",
   "ho1whjhkh5ilkqmYhoEiqs4thGho5rir-mQhhikiiwhrknh5hJhmiiirjhohhiqiAhhThhhjiilihhh4xiormimimpnh",
   "nhchkVjhihkjqmEdqs3kRhEIoOriKjGhnsllhh4hlhhhihihdjwdtiWhnhAhwwq2DhhzhkklhHkkdki_jmimimijjnhn",
   "tiish6hzhihviuChbjljkNhjYihtjhPhNhDk9jRhw7kEhp-lGhq-hFhkuKhekiqmEhkEhkIhoUhrshvhnhihrhvhnhij",
   "UhsXpp2qo4mhKhhpFimihhMhhijhi3hIiopQhzhilBhj7lhAiYhk0iPhvkhjh9qpnpnAiAhFhmspWhj9i7l6nksnQiJi",
   "XhThtThnKhsqmGho4oiQm_hKhjhiiwjbhIho2rp2ykkGh803phhWhvnk-hiihsRhkiiihku5nqpEhlhpyoDhhjrUhpqk",
   "ihwh0ryh8jihhimhifhnhhhkhvhrmPhhjtqoihoiii2hnhihljhhhhkiiijihsn8qhhihhGhhknhihhkhihhhhhjhiHh",
   "Yhoijhh1hhhj-QhhimhhihhihikoqGlPhhimkihi7EhThoihhikrqmtzLhhhhimhhimqm087likhp3ZlPhphihEjTiso",
   "ihiohih4hlhikhhkhjpqGioiKhokhk7hqIhmikophmijOhthiptJinqWlChuqmphGhuhhmq9jAh5hnhihLinhihGh1hp",
   "qmmhihFhkihhhhnqWpzikpvhEhoihhh3WihvShtb8GjPjhlrEmMSiDjtQBhxm5bcjlHyZVm-sjjqGWhZxn_hqkRihqm-",
   "nhqQhnvqqhnh1lzQtahGmbiFjLilYhrtAiksiuYfloWGhKhpHXokhnhihDpvh9jihukoMsEIiLjltjpnqihihAbjanmU",
   "tckUjchWnqHhichhhjk1in-kdh1Cijhaj0s0sXip5HkVihHihiihiiikhshhhnhBihkiohnh8hkhlhhjnhUqiEpiSxXh",
   "kShohuhnUDh_mmFoehSkNhqniqkiAq-yMhkqlhQu8kqWm-irkhAvnhkhihvhFmipQhEinhkqkiR4EiMidhCmkh7hihhi",
   "hhqhkhhhhmhkhhhhhhjhihhihhhhhhhhhhihhikhnhkhkhhhqhxljhlhxUhiOoMhkEjsvivhvhFhqOlYh9tMhkpniuma",
   "kY-kxjtjXjkfimskhvskYhoqmIho-iskiehUqsuitjqlYhnvirmpnTkhGjGAhAXJhAhaBkmemiCUluRJnvOzCNiewCPh",
   "LaklADk"]

def graphemeExtendRuns : List String :=
  ["A4QjTonHoNhhhhihihhIirQh1whFjnimiihkDhh-7birahpph4khphjhlLhjbhpKh4hAhXhhhhkokhjnqi9hahhhhiko",
   "hphqi6hiiZhhkikiijjh-ijhriZhhklhikh0i2mhhahhhihkohnjqi-hbhhhhshphIhhjhXhhhjljhkniri9hahhihih",
   "jhliniri8iZhihhikohphqi9hIihkhijhhohRihinsoCjhiprnJii7hhhhhXhuhlhilrhEhphGjkhmhiii5ikjwkthii",
   "mhvhf1jS9j9i-i-iAiihnohirphNhjhhVjiChhWjjkiphmjbmiihahhhnhhhhiomqihQh_RhkQhnhhlhIhpsiAhkiihj",
   "YhhhijhhjahoiiYkjhthnkhmhjiGmAiMwhDmBhefijNkhAjAhKxmJjiUO9khqAhiQiiQohjhkh5ilhXki6ythGho5rOh",
   "jQhhikiiHhhDimiiiishohPhhThhhjiilihhKhiohOnhihkhQZzhB3wwwOridyhCnhVklGUhjhilkIhjkhFlidxkBild",
   "piPikGirRhkbjhWhvJhhiiqjRhkiinhdhjEhlhoehhsiUhpqkihfijihhimhihdkhjo1iZhihhhh2hunjlGimthhhhhu",
   "iVioijhh3hRihimhhihhihiLnhikmihi7iVioihhiKjhhhimhhFjjikhlDophiVnhqihhkhQkkiikhAhqIhmikohpmij",
   "OhthiWsnhmhhSi2inhihiajmjhhihnhhIiijhhhbqiriUhllhhh3hFHlhmvIGrsjjAOilbhnYAhhfhkRihYFziBTkOhi",
   "3ewhhjklooin-kUkjbdhXhkShohuh2lhvQKhnhxinhihlEjhAlnXrhdhkcvkeniA3nNjnVWF4AjAkQn"]

def graphemeLinkRuns : List String :=
  ["NKihfjhfjhfjhfjhfjhfjhfjhNjiwhcjhPjhfjhJmhUliZWhi-hdkhN0hDnhFjiGiiLMkhGU-hFhhXkhOkhMjhVphWnh",
   "RS3hGQhhJhhuhZhhZjiLkhUjhUlhCjhAkjRjhfjhcnhfjhWjhUjhNohDoiBlhTihyhRihFthEoiRihJtiMPwh"]

def hexDigitRuns : List String :=
  ["Qhqnm6mJVfhqnm6m"]

def hyphenRuns : List String :=
  ["NhhfjhcGhhbTkhJAiiFQjhD3hHLThhJlhXih"]

def idsBinaryOperatorRuns : List String :=
  ["QfriiqRvh"]

def idsTrinaryOperatorRuns : List String :=
  ["Sfri"]

def idsUnaryOperatorRuns : List String :=
  ["efri"]

def idContinueRuns : List String :=
  ["Qhqn6khh6Phhqhhhihl3h_hKuksulnhhhxVjhiikhhmlhhh0hTihLkhliGlhGhihmJhoNhhhhihihho7kk9rlKikGjho",
   "iqhzihwbhiFjuWhkhihiOhy8krl4hmoLihBkiqhzhoiii2hnhhjkipiiikohkihlisqhhhijhmkii2hnhihihiihhlki",
   "ijjhnkhhnwrjhphjh2hnhihliqhjhjihvkiqpnhjhoiii2hnhihlipiiijnjkihliqhhwihmjjhkjihhhijijjjskljj",
   "hkihmhuqwthjh3hwiphjhknihjihikiqwkhohjh3hqhliphjhknimihkiqhjsthjhThhjhllknliqqmhjhyj4hphhinj",
   "hkmhhhomqiitahlvhqHhihhhlh4hhh3ilhhhnhqikAhh3imqrhhhhhkqhEhk0hyhEhphZhKimOiiGhhhlhiLhhNqhkin",
   "hhhkiJhhkiBhhkinhhhkivhZhhkiDiijppuwwWiimjMzixh6lLijrn2p2r0sthjhisUijhkiiqBhjhrmZinLhlGiq_hs",
   "ksqIhilrMhk6mrFh8kfhh9irmqthouhwRhNijqxpsUjsYhoqjRhirlLhijwjhHhlWwimiGhimiohhhhhhh_iVhhnhhjj",
   "hnjkimktljhnCiizh8hthwtThtkhjsxhkhiqhhimmhhhhhhwikllkhxJhXTiFnmpsGhhhlhiYhnhv4pnhnhnhnhnhnhn",
   "hnhAhFwj5vhlilkWiinhaihklLhheixAhQhwAwAOmAiNU1DiOhiNoj80QhkqhTjFhpiHjiDiiihhho1WhkhzUhsGiqqm",
   "4jhhRhiEhs9jBiurm_hXhpuiqm3jJi4jiwilqmimimpnhnhLhhumbjhiiqmEdqs3kRhEIoOriKjGhnsllshthlhhhihi",
   "hMjBhLryAiiWhIhskwwwji4jAhlhHkzqn6khh6rZijmimimijDhsh6hzhihviuChbjFiVhIkhCk9jRhvh_Aht-lLhl-i",
   "EhkohlKhekiqmEhkEhkIhoUhsrhvhnhihrhvhnhijUhsXpp2qo4mhKhhpFimihhMhhijhi3q3p_Bizhiq2q6GiYhmiAi",
   "khilohjh9ijkhAh9j9Dhoh-5Whq2qztyOjJiXhThtThtIhoqmGhjlh3anKhhijiwjXhBhqhoBh_2Kh173pHi_wpchnht",
   "5nqmVhhqkkoEhihpFikkhthhDhyhFhmkehnhhhkhvhqnbhlqmkhoiii2hnhihlhqiiijihmhlninjlrqhhihhGhhqhhi",
   "hhkhoti9Lilqkk-GihhoqGlWhip3mChBijhrqGhZhnqm087ivkqmnZlbhFjKi1oihiohih-hiipsqGioiOhiohi7fhoh",
   "oKijhyJiHmBhvqmphNhhpvq4-i2huJinhihMhjhhihpoqmmhihFhhihmnqWp3pxhJhjltrVihPia8GjPjxEmMSiBjvQB",
   "hw2qbcjlHyZVmahGWhZxn_hqmPihqm-ilrXhpksqp1lzQtNhjqGmAiAkLikZhnxAiihiriuYfloWGhKhpHXokhnhihDp",
   "vh9jihukoMsEIiLjltjpnqjiRCkqGwOhi3ewljmooin-kUkjbtVihHihiihiiikhshhhnhBihkiohnh8hkhlhhjnhUqi",
   "5h5h_h5h_h5h_h5h_h5hoiShAwXhkShohuh2lhvQCh_mmVmnhxinhihllehBhhQjNhjuiqkhBq_xahWuKhWmLhFvnhkh",
   "ihvhFmrnJhMikqGFhkh7hihhihhqhkhhhhmhkhhhhhhjhihhihhhhhhhhhhihhikhnhkhkhhhqhxljhlhxUJjqGAhAXJ",
   "hAhaBkmemiCUluRJnvOzCNiewCPhLaklADkQKX1Qn"]

def idStartRuns : List String :=
  ["Bi6m6Phhqhkhl3h_hKuksulnhhhBklhiikhhmhhjhhh0hTihLkoGlhGhihmJhHi7kkNhLhDhihDjhhviniqjihwhh-9Z",
   "irh4Bhpikhl2khphjh35nrl4hmxKhahWhjhyhnqvwkoiii2hnhhjkjhwhtihjuiqhomkii2hnhihihi_khhzjwphjh2h",
   "nhihljhyhvi3hroiii2hnhihljh-ihjvhxhhmjjhkjihhhijijjjs2hUhohjh3hwjh6jihii-hkohjh3hqhljh_ihivi",
   "xphjhJhihwhljoj4mlyj4hphhinahQhhisnahihhhlh4hhhqhiphilhh1kAhhfhohEh7lTjLh0hwmkkjhjinjktshxGh",
   "hhlhiLhhNqhkinhhhkiJhhkiBhhkinhhhkivhZhhkiDiFhwwWiimjMzixh6lLijrnytzuyuthjvUhDhhkhDiZinJhhhl",
   "Giq_Rh-ilrMhk6Wh3pVhSihdiPhxoWh-tiqMh6EhJhjqEhirlLhijJhkhmhijhlAmAiWoimiGhimiohhhhhhh_iVhhnh",
   "hjjhnjkimktljhnUjhthwtFjhkhiqhhimmhhhhhhwikllkhxJhXTiFnmkjisGhhhlhiYhnhw3pnhnhnhnhnhnhnhnGxj",
   "5pnlilkWiklhaihklLhheixAhQhwAwAOmAiNU1DiOhiNojwqi0Phw_iQiHhpiHjiDiiihhho1whjhkh39UhuShehmjhh",
   "ir8q359nPh8hwlhqqlhJh3jho03jhjShhhjiilihhh4jirnjsmimimpnhnhLhhumTj9Edqs3kRhEIoOriKjGhnsllhhq",
   "hthlhhhihihMjBhLryAiiWhIhsUjlhHkEh6m6rZijmimimijDhsh6hzhihviuChbjFiVhLo9jRhPhAht-lGhq-iEhkoh",
   "lKhekyEhkEhkIhoUhsrhvhnhihrhvhnhijUhsXpp2qo4mhKhhpFimihhMhhijhi3q3p_Bizhiq2q6GiYhmiAihvkhjh9",
   "Kh9j9Dhoh87Whq2qztyOjJiXhThtThtEhGh8p3anKhmiwjbh9qho2KhyOh173sVhZhiihtNhAh56Eh9hihoDhjhsQhuk",
   "1hhhDhyh5zifhnhhhkhvhqnPhGhoiii2hnhihljhyhsl-qhhihhGhhh5hhhMhVhyk0j-Qh0ihhYlPhJhkEhQh0hbhLht",
   "hHi7FhnZlMhUjAi_oihiohih4vhhheioiHhwhhh8hqIhnh1hrOhzhyJiHmBh_phFhxhRh-QjnhihGh1h5mhihAhuhHqz",
   "vhhthChcjhPia8GjPjxEmMSiBjvQBhxm5bcjlHyZVm-CXhZxn_xPix-yQhwk_1lzQtNhTmAiAkLilhCitAiihh8YfloW",
   "GhKhpHXokhnhihDpvh9jihukoMsEIiLjltjpnqGblVihHihiihiiikhshhhnhBihkiohnh8hkhlhhjnhUqi5h5h_h5h_",
   "h5h_h5h_h5hoUZh_mmFoehSkNhqnwhBq-yMhEv8En-ihPvnhkhihvhFmbhEinhUFhkh7hihhihhqhkhhhhmhkhhhhhhj",
   "hihhihhhhhhhhhhihhikhnhkhkhhhqhxljhlhxEKkAXJhAhaBkmemiCUluRJnvOzCNiewCPhLaklADk"]

def ideographicRuns : List String :=
  ["GAsi5pujF-AOmAiAQ0AI2OriKjKI9h7YfloWGhKhpHDpMsEIzAXJhAhaBkmemiCUluRJnvOzCNiewCPhLaklADk"]

def joinControlRuns : List String :=
  ["MAoi"]

def logicalOrderExceptionRuns : List String :=
  ["ASjlbjlQXijihaHEhiihhi"]

def lowercaseRuns : List String :=
  ["Bj6PhhqhkhEh4hohhhhhhhhhhhhhhhhhhhhhhhhhhhhhhhhhhhhhhhhhhhhhhhhhhhhhhhihhhhhhhhhhhhhhhihhhhh",
   "hhhhhhhhhhhhhhhhhhhhhhhhhhhhhhhhhhhhhhhhhihhhhjihhhihjikhihjjihihhhhhihhihhihjhhhiiijmhihihh",
   "hhhhhhhhhhhhhhihhhhhhhhhhhhhhhhhiihhhjhhhhhhhhhhhhhhhhhhhhhhhhhhhhhhhhhhhhhhhhhhhhhhhhhhhhhh",
   "hhhhnihiihhkhhhhhhhhFihEhni-lAjhLhhhhjhikyh7DhhijjhhhhhhhhhhhhhhhhhhhhhhhlhhihiiThQhhhhhhhhh",
   "hhhhhhhhhhhhhhhhhhhhhhhhhhphhhhhhhhhhhhhhhhhhhhhhhhhhhhhhhhhhhhhhhhhhhhhhhhhhhhhihhhhhhhhhhh",
   "hihhhhhhhhhhhhhhhhhhhhhhhhhhhhhhhhhhhhhhhhhhhhhhhhhhhhhhhhhhhhhhhhhhhhhhhhhhhhhhhhhhhhhhhhhh",
   "hhhhhhQhJhHaiLhhkY3mCEiphhVjAmBihhhhhhhhhhhhhhhhhhhhhhhhhhhhhhhhhhhhhhhhhhhhhhhhhhhhhhhhhhhh",
   "hhhhhhhhhhhhhhhhhhhhhhhhhhhhhhhhhhhhhhhhhhhhhhhhhhhhhhhhhhhhhhhhhhhhhhhhhhhhhhhhhhhhhhhhphhh",
   "hhhhhhhhhhhhhhhhhhhhhhhhhhhhhhhhhhhhhhhhhhhhhhhhhhhhhhhhhhhhhhhhhhhhhhhhhhhhhhhhhhhhhhhhhhhh",
   "hhpomqoooomqoooouioooooolhimhjjhiokiiooqjhiZjhthwtNjhjijh7hkhkhiiokkhBhwkhL66GahQhhhjihhhhhh",
   "khhihojhhhhhhhhhhhhhhhhhhhhhhhhhhhhhhhhhhhhhhhhhhhhhhhhhhhhhhhhhhhhhhhhhhhhhhhhhhhhhhhhhhhhh",
   "hhhhhhhhhhhhhinhhhkhsGhhhlhTI-hhhhhhhhhhhhhhhhhhhhhhhhhhhhhhhhhhhhhhhhhhhhhzhhhhhhhhhhhhhhhh",
   "hhhhhhhhhhjFkhhhhhhhhhhhhjhhhhhhhhhhhhhhhhhhhhhhhhhhhhhhhhhhhhhhhhhhhhhhhhhhhhhhhhhhhhhqhhhh",
   "ihhhhhhhhhkhhhihhjhhhhhhhhhhhhhhhhhhhhlhlhhhhhhhhhhhhhhhkhhhihjhhhhhhhhhhh2jhhhjV5LhhumQiAaz",
   "nslJBh6NGhIhIkEhbkrhvhnhiDuhijhKhhpFIhThdj2aZiAhAM1AhaM566nhy666khhhnhr66666666666666666885h",
   "m65hm65hm65hm65hmhhUZhqh0mmFoehUFiCh"]

def mathRuns : List String :=
  ["Lhhwj_h9hhhNhhkhFhh_hY2jih6iijPwjNQmh7jrhjhthuk1lrlBitkhjiklyhkhiqhhimmhjiiihjhmjuhhEi4hmhik",
   "ikAhhhmiuMook0iaih-7hh4hrndtisqkmkiiijluhhhimroliZhhhh9kpjQqAiAoAwQh1imceThhX5mhhClhwj9hhh9h",
   "hhDkhmkBNjiQTRhVihHihiihiiikhshhhnhBihkiohnh8hkhlhhjnhUqiEpiShAQlkh7hihhihhqhkhhhhmhkhhhhhhj",
   "hihhihhhhhhhhhhihhikhnhkhkhhhqhxljhlhxUhi"]

def noncharacterCodePointRuns : List String :=
  ["QOfhAhOwieffhieffhieffhieffhieffhieffhieffhieffhieffhieffhieffhieffhieffhieffhieffhieffhi"]

def patternSyntaxRuns : List String :=
  ["Bhvqn6khh6kChnhhhihhhikhkhjh3h_hYYn4ovizhqRpQ2AlWz-MDhAwAkBsjk5vhNIThiFoi"]

def patternWhiteSpaceRuns : List String :=
  ["plyhEjhIcni4i"]

def prependedConcatenationMarkRuns : List String :=
  ["AQhmXmhRhhAsiQihaeBihvh"]

def quotationMarkRuns : List String :=
  ["ChhkhDkhvhcano5iHQjhJuktjBRThkdlhkhaii"]

def radicalRuns : List String :=
  ["AUr6hZisWm"]

def regionalIndicatorRuns : List String :=
  ["GPcj6"]

def sentenceTerminalRuns : List String :=
  ["BhhshwhJKhhTkjUlhLhjWnhdhhhhjiFpiEXhiW4hkiF4hGmiMmhlhapiCrkOliii9icliBiic9ipjEPjhth2iNthcH9h",
   "OoiDnhjheriWiifihYkiTkjQkiZnhGT0hjiJlhshwhBihUXiidHhlMhkdliVjkfjjBkimhwiYiihiMjhBtiVrilvJjiZ",
   "njFwhhhbniXiiEtiU1iKiiJZyiFkhBiirhT6hGQzhIPnh"]

def softDottedRuns : List String :=
  ["JjiEmhZoh-hUhh0hAqhCjhhhJImhThhthjhEkhdkhFthWmiSZihFdJjiShiShiShiShiShiShiShiShiShiShiShiShi",
   "GEihRpi6h"]

def terminalPunctuationRuns : List String :=
  ["Bhhqhhhrijhe5hohBwhZhhIihuhhjUlhLhrhhLniWhv_hFoiUHhiMlhkmXpiV4oF4hcjjHiidkjjhHhkiiapiCrkOlih",
   "j9icllehic9ipjEPjhthkhqhhijiMtibH9iNojDnleriWiifihXkjTkjfjhwiZnhET0jhkJlhqhhhrijhBihihaBhhQh",
   "hGEhhHmhWpiYkmEimZikY9lMhkdlnQjkfjjBkimhwiYilMjhBtjsiGrkjvJjiZnjFwhhhbniXiikiesjNhhF0iKiiLJh",
   "lZPxiFkhBijqhS6iGQzhHPnk"]

def unifiedIdeographRuns : List String :=
  ["AAtAOmAiAQ0OQ2ihhhiqhhhhiijWOBiAXJhAhaBkmemiCUluRJnvOzCNkLaklADk"]

def uppercaseRuns : List String :=
  ["Bi6Fj3hnBhhhhhhhhhhhhhhhhhhhhhhhhhhhhhhhhhhhhhhhhhhhhhhhhhhhhhhhhihhhhhhhhhhhhhhhihhhhhhhhhh",
   "hhhhhhhhhhhhhhhhhhhhhhhhhhhhhhhhhhhhihhhhjihhhihjikhihjjihihhhhhihhihhihjhhhijhnhihihihhhhhh",
   "hhhhhhhhhihhhhhhhhhhhhhhhhhihihhjhhhhhhhhhhhhhhhhhhhhhhhhhhhhhhhhhhhhhhhhhhhhhhhhhhhhhhhhhhn",
   "ihiihhkhhhhhhhhBphhhjhohmhhjhhhihxhpDhhijjhhhhhhhhhhhhhhhhhhhhhhhlhihhiiThQhhhhhhhhhhhhhhhhh",
   "hhhhhhhhhhhhhhhhhphhhhhhhhhhhhhhhhhhhhhhhhhhhhhhhhhhhhhhhhhhhhhhhhhhhhhhihhhhhhhhhhhhihhhhhh",
   "hhhhhhhhhhhhhhhhhhhhhhhhhhhhhhhhhhhhhhhhhhhhhhhhhhhhhhhhhhhhhhhhhhhhhhhhhhhhhhhhhhhhhhhhhiGh",
   "JaiGhhhlhS2WiTEihmLhijAqhhhhhhhhhhhhhhhhhhhhhhhhhhhhhhhhhhhhhhhhhhhhhhhhhhhhhhhhhhhhhhhhhhhh",
   "hhhhhhhhhhhhhhhhhhhhhhhhhhhhhhhhhhhhhhhhhhhhhhhhhhhhhhhhhhhhhhhhhhhhhhhhhhhhhhhhhphhhhhhhhhh",
   "hhhhhhhhhhhhhhhhhhhhhhhhhhhhhhhhhhhhhhhhhhhhhhhhhhhhhhhhhhhhhhhhhhhhhhhhhhhhhhhhhhhhhhhpoomq",
   "oooomrhhhhhhhooIikskskslrkGohkhjjijihjlmhhhhhhkikqilh6wzhS56QZhQhQhhhjihhhhhhkhhihojhhhhhhhh",
   "hhhhhhhhhhhhhhhhhhhhhhhhhhhhhhhhhhhhhhhhhhhhhhhhhhhhhhhhhhhhhhhhhhhhhhhhhhhhhhhhhhhhhhhhhhoh",
   "hhkhNK-hhhhhhhhhhhhhhhhhhhhhhhhhhhhhhhhhhhhhhhhhhhhhzhhhhhhhhhhhhhhhhhhhhhhhhhhhHkhhhhhhhhhh",
   "hhhjhhhhhhhhhhhhhhhhhhhhhhhhhhhhhhhhhhhhhhhhhhhhhhhhhhhhhhhhhhhhhqhhhhihhhhhhhhkhhhihhhjhhhh",
   "hhhhhhhhhhhhhhhhlhlhhhhhhhhhhhhhhhkhhhijhlhhhhhhh4hLZ16FGhIhIkEhckrhvhnhiKXhThdk2aZiAhAM1AhA",
   "N5666666hhiihiiikho666ihkiohn7ihkhlhhjn766666666666-5Bh5Bh5Bh5Bh5BhhVJkChOAi6m6m6"]

def variationSelectorRuns : List String :=
  ["LAmjhhQPZhwQXA6Qn"]

def whiteSpaceRuns : List String :=
  ["plyhEjh6hfOlhfLir9ilhPhhAdjh"]

def xidContinueRuns : List String :=
  ["Qhqn6khh6Phhqhhhihl3h_hKuksulnhhhxVjhijjhhmlhhh0hTihLkhliGlhGhihmJhoNhhhhihihho7kk9rlKikGjho",
   "iqhzihwbhiFjuWhkhihiOhy8krl4hmoLihBkiqhzhoiii2hnhhjkipiiikohkihlisqhhhijhmkii2hnhihihiihhlki",
   "ijjhnkhhnwrjhphjh2hnhihliqhjhjihvkiqpnhjhoiii2hnhihlipiiijnjkihliqhhwihmjjhkjihhhijijjjskljj",
   "hkihmhuqwthjh3hwiphjhknihjihikiqwkhohjh3hqhliphjhknimihkiqhjsthjhThhjhllknliqqmhjhyj4hphhinj",
   "hkmhhhomqiitahlvhqHhihhhlh4hhh3ilhhhnhqikAhh3imqrhhhhhkqhEhk0hyhEhphZhKimOiiGhhhlhiLhhNqhkin",
   "hhhkiJhhkiBhhkinhhhkivhZhhkiDiijppuwwWiimjMzixh6lLijrn2p2r0sthjhisUijhkiiqBhjhrmZinLhlGiq_hs",
   "ksqIhilrMhk6mrFh8kfhh9irmqthouhwRhNijqxpsUjsYhoqjRhirlLhijwjhHhlWwimiGhimiohhhhhhh_iVhhnhhjj",
   "hnjkimktljhnCiizh8hthwtThtkhjsxhkhiqhhimmhhhhhhwikllkhxJhXTiFnmpsGhhhlhiYhnhv4pnhnhnhnhnhnhn",
   "hnhAhFwj5vhlilkWiiiijhaihklLhheixAhQhwAwAOmAiNU1DiOhiNoj80QhkqhTjFhpiHjiDiiihhho1WhkhzUhsGiq",
   "qm4jhhRhiEhs9jBiurm_hXhpuiqm3jJi4jiwilqmimimpnhnhLhhumbjhiiqmEdqs3kRhEIoOriKjGhnsllshthlhhhi",
   "hihMjBhLkmamyAiiWhIhqmwwwji4jBhhhhjhhhhhhhhejzqn6khh6rZijmimimijDhsh6hzhihviuChbjFiVhIkhCk9j",
   "Rhvh_Aht-lLhl-iEhkohlKhekiqmEhkEhkIhoUhsrhvhnhihrhvhnhijUhsXpp2qo4mhKhhpFimihhMhhijhi3q3p_Bi",
   "zhiq2q6GiYhmiAikhilohjh9ijkhAh9j9Dhoh-5Whq2qztyOjJiXhThtThtIhoqmGhjlh3anKhhijiwjXhBhqhoBh_2K",
   "h173pHi_wpchnht5nqmVhhqkkoEhihpFikkhthhDhyhFhmkehnhhhkhvhqnbhlqmkhoiii2hnhihlhqiiijihmhlninj",
   "lrqhhihhGhhqhhihhkhoti9Lilqkk-GihhoqGlWhip3mChBijhrqGhZhnqm087ivkqmnZlbhFjKi1oihiohih-hiipsq",
   "GioiOhiohi7fhohoKijhyJiHmBhvqmphNhhpvq4-i2huJinhihMhjhhihpoqmmhihFhhihmnqWp3pxhJhjltrVihPia8",
   "GjPjxEmMSiBjvQBhw2qbcjlHyZVmahGWhZxn_hqmPihqm-ilrXhpksqp1lzQtNhjqGmAiAkLikZhnxAiihiriuYfloWG",
   "hKhpHXokhnhihDpvh9jihukoMsEIiLjltjpnqjiRCkqGwOhi3ewljmooin-kUkjbtVihHihiihiiikhshhhnhBihkioh",
   "nh8hkhlhhjnhUqi5h5h_h5h_h5h_h5h_h5hoiShAwXhkShohuh2lhvQCh_mmVmnhxinhihllehBhhQjNhjuiqkhBq_xa",
   "hWuKhWmLhFvnhkhihvhFmrnJhMikqGFhkh7hihhihhqhkhhhhmhkhhhhhhjhihhihhhhhhhhhhihhikhnhkhkhhhqhxl",
   "jhlhxUJjqGAhAXJhAhaBkmemiCUluRJnvOzCNiewCPhLaklADkQKX1Qn"]

def xidStartRuns : List String :=
  ["Bi6m6Phhqhkhl3h_hKuksulnhhhBklhijjhhmhhjhhh0hTihLkoGlhGhihmJhHi7kkNhLhDhihDjhhviniqjihwhh-9Z",
   "irh4Bhpikhl2khphjh35nrl4hmxKhahWhjhyhnqvwkoiii2hnhhjkjhwhtihjuiqhomkii2hnhihihi_khhzjwphjh2h",
   "nhihljhyhvi3hroiii2hnhihljh-ihjvhxhhmjjhkjihhhijijjjs2hUhohjh3hwjh6jihii-hkohjh3hqhljh_ihivi",
   "xphjhJhihwhljoj4mlyj4hphhinahQhhhtnahihhhlh4hhhqhhqhilhh1kAhhfhohEh7lTjLh0hwmkkjhjinjktshxGh",
   "hhlhiLhhNqhkinhhhkiJhhkiBhhkinhhhkivhZhhkiDiFhwwWiimjMzixh6lLijrnytzuyuthjvUhDhhkhDiZinJhhhl",
   "Giq_Rh-ilrMhk6Wh3pVhSihdiPhxoWh-tiqMh6EhJhjqEhirlLhijJhkhmhijhlAmAiWoimiGhimiohhhhhhh_iVhhnh",
   "hjjhnjkimktljhnUjhthwtFjhkhiqhhimmhhhhhhwikllkhxJhXTiFnmkjisGhhhlhiYhnhw3pnhnhnhnhnhnhnhnGxj",
   "5pnlilkWimjhaihklLhheixAhQhwAwAOmAiNU1DiOhiNojwqi0Phw_iQiHhpiHjiDiiihhho1whjhkh39UhuShehmjhh",
   "ir8q359nPh8hwlhqqlhJh3jho03jhjShhhjiilihhh4jirnjsmimimpnhnhLhhumTj9Edqs3kRhEIoOriKjGhnsllhhq",
   "hthlhhhihihMjBhLkmamyAiiWhIhqXjhhhjhhhhhhhhejEh6m6rYhi_jmimimijDhsh6hzhihviuChbjFiVhLo9jRhPh",
   "Aht-lGhq-iEhkohlKhekyEhkEhkIhoUhsrhvhnhihrhvhnhijUhsXpp2qo4mhKhhpFimihhMhhijhi3q3p_Bizhiq2q6",
   "GiYhmiAihvkhjh9Kh9j9Dhoh87Whq2qztyOjJiXhThtThtEhGh8p3anKhmiwjbh9qho2KhyOh173sVhZhiihtNhAh56E",
   "h9hihoDhjhsQhuk1hhhDhyh5zifhnhhhkhvhqnPhGhoiii2hnhihljhyhsl-qhhihhGhhh5hhhMhVhyk0j-Qh0ihhYlP",
   "hJhkEhQh0hbhLhthHi7FhnZlMhUjAi_oihiohih4vhhheioiHhwhhh8hqIhnh1hrOhzhyJiHmBh_phFhxhRh-QjnhihG",
   "h1h5mhihAhuhHqzvhhthChcjhPia8GjPjxEmMSiBjvQBhxm5bcjlHyZVm-CXhZxn_xPix-yQhwk_1lzQtNhTmAiAkLil",
   "hCitAiihh8YfloWGhKhpHXokhnhihDpvh9jihukoMsEIiLjltjpnqGblVihHihiihiiikhshhhnhBihkiohnh8hkhlhh",
   "jnhUqi5h5h_h5h_h5h_h5h_h5hoUZh_mmFoehSkNhqnwhBq-yMhEv8En-ihPvnhkhihvhFmbhEinhUFhkh7hihhihhqh",
   "khhhhmhkhhhhhhjhihhihhhhhhhhhhihhikhnhkhkhhhqhxljhlhxEKkAXJhAhaBkmemiCUluRJnvOzCNiewCPhLaklA",
   "Dk"]

/-- The binary properties with their names. -/
def propertyTable : List (List String × List String) :=
  [(["ahex", "asciihexdigit"], asciiHexDigitRuns),
   (["alpha", "alphabetic"], alphabeticRuns),
   (["bidic", "bidicontrol"], bidiControlRuns),
   (["bidim", "bidimirrored"], bidiMirroredRuns),
   (["caseignorable", "ci"], caseIgnorableRuns),
   (["cased"], casedRuns),
   (["changeswhencasefolded", "cwcf"], changesWhenCasefoldedRuns),
   (["changeswhencasemapped", "cwcm"], changesWhenCasemappedRuns),
   (["changeswhenlowercased", "cwl"], changesWhenLowercasedRuns),
   (["changeswhentitlecased", "cwt"], changesWhenTitlecasedRuns),
   (["changeswhenuppercased", "cwu"], changesWhenUppercasedRuns),
   (["dash"], dashRuns),
   (["defaultignorablecodepoint", "di"], defaultIgnorableCodePointRuns),
   (["dep", "deprecated"], deprecatedRuns),
   (["dia", "diacritic"], diacriticRuns),
   (["emoji"], emojiRuns),
   (["ecomp", "emojicomponent"], emojiComponentRuns),
   (["emod", "emojimodifier"], emojiModifierRuns),
   (["ebase", "emojimodifierbase"], emojiModifierBaseRuns),
   (["emojipresentation", "epres"], emojiPresentationRuns),
   (["extendedpictographic", "extpict"], extendedPictographicRuns),
   (["ext", "extender"], extenderRuns),
   (["graphemebase", "grbase"], graphemeBaseRuns),
   (["graphemeextend", "grext"], graphemeExtendRuns),
   (["graphemelink"], graphemeLinkRuns),
   (["hex", "hexdigit"], hexDigitRuns),
   (["hyphen"], hyphenRuns),
   (["idsb", "idsbinaryoperator"], idsBinaryOperatorRuns),
   (["idst", "idstrinaryoperator"], idsTrinaryOperatorRuns),
   (["idsu", "idsunaryoperator"], idsUnaryOperatorRuns),
   (["idc", "idcontinue"], idContinueRuns),
   (["ids", "idstart"], idStartRuns),
   (["ideo", "ideographic"], ideographicRuns),
   (["joinc", "joincontrol"], joinControlRuns),
   (["loe", "logicalorderexception"], logicalOrderExceptionRuns),
   (["lower", "lowercase"], lowercaseRuns),
   (["math"], mathRuns),
   (["nchar", "noncharactercodepoint"], noncharacterCodePointRuns),
   (["patsyn", "patternsyntax"], patternSyntaxRuns),
   (["patternwhitespace", "patws"], patternWhiteSpaceRuns),
   (["pcm", "prependedconcatenationmark"], prependedConcatenationMarkRuns),
   (["qmark", "quotationmark"], quotationMarkRuns),
   (["radical"], radicalRuns),
   (["regionalindicator", "ri"], regionalIndicatorRuns),
   (["sentenceterminal", "sterm"], sentenceTerminalRuns),
   (["sd", "softdotted"], softDottedRuns),
   (["term", "terminalpunctuation"], terminalPunctuationRuns),
   (["uideo", "unifiedideograph"], unifiedIdeographRuns),
   (["upper", "uppercase"], uppercaseRuns),
   (["variationselector", "vs"], variationSelectorRuns),
   (["space", "whitespace", "wspace"], whiteSpaceRuns),
   (["xidc", "xidcontinue"], xidContinueRuns),
   (["xids", "xidstart"], xidStartRuns)]

/-- The characters with a binary property. -/
def property? (name : String) : Option CharSet :=
  (propertyTable.find? fun p => p.1.contains name).map fun p => alternating p.2

/-- The names of properties that are not binary. -/
def valuedNames : List String :=
  ["age", "bc", "bidiclass", "bidimirroringglyph", "bidipairedbracket", "bidipairedbrackettype",
   "blk", "block", "bmg", "bpb", "bpt", "c", "canonicalcombiningclass", "casefolding",
   "category", "ccc", "ce", "cf", "cjkaccountingnumeric", "compex", "compositionexclusion",
   "decompositionmapping", "decompositiontype", "dm", "dt", "ea", "eastasianwidth",
   "expandsonnfc", "expandsonnfd", "expandsonnfkc", "expandsonnfkd", "fcnfkcclosure",
   "fullcompositionexclusion", "gc", "gcb", "generalcategory", "graphemeclusterbreak",
   "hangulsyllabletype", "hst", "idcompatmathcontinue", "idcompatmathstart", "incb",
   "indicconjunctbreak", "indicpositionalcategory", "indicsyllabiccategory", "inpc", "insc",
   "jamoshortname", "jg", "joininggroup", "joiningtype", "jt", "kaccountingnumeric",
   "krsunicode", "lb", "lc", "linebreak", "lowercasemapping", "mcm", "modifiercombiningmark",
   "na", "na1", "name", "namealias", "nfcqc", "nfcquickcheck", "nfdqc", "nfdquickcheck",
   "nfkccasefold", "nfkccf", "nfkcqc", "nfkcquickcheck", "nfkdqc", "nfkdquickcheck", "nt",
   "numerictype", "numericvalue", "nv", "ocomment", "otheralphabetic",
   "otherdefaultignorablecodepoint", "othergraphemeextend", "otheridcontinue", "otheridstart",
   "otherlowercase", "othermath", "otheruppercase", "perlgcb", "perlnamealias", "perlsb",
   "perlwb", "sb", "sc", "scf", "script", "scriptextensions", "scx", "sentencebreak", "sfc",
   "simplecasefolding", "simplelowercasemapping", "simpletitlecasemapping",
   "simpleuppercasemapping", "slc", "stc", "suc", "tc", "titlecasemapping", "uc", "unicode1name",
   "uppercasemapping", "verticalorientation", "vo", "wb", "wordbreak"]

def isPropertyName (name : String) : Bool :=
  valuedNames.contains name || propertyTable.any fun p => p.1.contains name

end PairGrep.Pattern.Unicode
