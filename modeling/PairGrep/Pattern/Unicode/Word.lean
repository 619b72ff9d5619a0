import PairGrep.Pattern.Unicode.Table
import PairGrep.Text.Blank

/-!
# Words, digits and blanks

The sets behind the short classes of the pattern notation. A word character is alphabetic, a mark,
a decimal digit, a connector or a joiner.
-/

namespace PairGrep.Pattern.Unicode

/-- The word characters, in alternating runs. -/
def wordRuns : List String :=
  ["Qhqn6khh6Phhqhkhl3h_hKuksulnhhhxVjhiikhhmhhjhhh0hTihLkhNlhGhihmJhoNhhhhihihho7kk9rlKikGjhoiq",
   "hzihwbhiFjuWhkhihiOhy8krl4hmoLihBkiqhzhoiii2hnhhjkipiiikohkihlisqhhhijhmkii2hnhihihiihhlkiij",
   "jhnkhhnwrjhphjh2hnhihliqhjhjihvkiqpnhjhoiii2hnhihlipiiijnjkihliqhhwihmjjhkjihhhijijjjskljjhk",
   "ihmhuqwthjh3hwiphjhknihjihikiqwkhohjh3hqhliphjhknimihkiqhjsthjhThhjhllknliqqmhjhyj4hphhinjhk",
   "mhhhomqiitahlvhqHhihhhlh4hhh3ilhhhnhqikAhh3imqrhhhhhkqhEhk0hyhEhphZhKimOiiGhhhlhiLhhNqhkinhh",
   "hkiJhhkiBhhkinhhhkivhZhhkiDiijAhwwWiimjMzixh6lLijrn2p2r0sthjhisUijhkiiqBhjhrmZinLhlGiq_hsksq",
   "IhilrMhk6mqGh8kfhh9irmqtho_RhNijqxpsUjsYhoqjRhirlLhijwjhHhlWwimiGhimiohhhhhhh_iVhhnhhjjhnjki",
   "mktljhnviRhizh8hthwtThBhxhkhiqhhjlmhhhhhhkhrikllkhxJhN5UhWYhFnmpsGhhhlhiYhnhv4pnhnhnhnhnhnhn",
   "hnhAhPhhVuj5vhlilkWiiiijhaihklLhheixAhQhwAwAOmAiNU1DiOhiNoj80ThhqhTjFhpiHjiDiiihhho1WhkhzUhs",
   "Giqqm4jhhRhiEhs9jBiurm_hXhpuiqm3jJi4jiwilqmimimpnhnhLhhumbjhiiqmEdqs3kRhEIoOriKjGhnsllshthlh",
   "hhihihMjBhLryAiiWhIhskwwwji4jAhlhHkzqn6khh6rZijmimimijDhsh6hzhihviuChbjFiVhIkhCk9jRhvh_Aht-l",
   "Lhl-iEhkohlKhekiqmEhkEhkIhoUhsrhvhnhihrhvhnhijUhsXpp2qo4mhKhhpFimihhMhhijhi3q3p_Bizhiq2q6GiY",
   "hmiAikhilohjh9ijkhAh9j9Dhoh-5Whq2qztyOjJiXhThtThtIhoqmGhjlh3anKhhijiwjXhBhqhoBh_2Kh173pHi_wp",
   "chnht5nqmVhhqkkoEhihpFikkhthhDhyhFhmkehnhhhkhvhqnbhlqmkhoiii2hnhihlhqiiijihmhlninjlrqhhihhGh",
   "hqhhihhkhoti9Lilqkk-GihhoqGlWhip3mChBijhrqGhZhnqm087ivkqmnZlbhFjKi1oihiohih-hiipsqGioiOhiohi",
   "7fhohoKijhyJiHmBhvqmphNhhpvq4-i2huJinhihMhjhhihpoqmmhihFhhihmnqWp3pxhJhjltrVihPia8GjPjxEmMSi",
   "BjvQBhw2qbcjlHyZVmahGWhZxn_hqmPihqm-ilrXhpksqp1lzQtNhjqGmAiAkLikZhnxAiihiriuYfloWGhKhpHXokhn",
   "hihDpvh9jihukoMsEIiLjltjpnqjiRCkqGwOhi3ewljmooin-kUkjbtVihHihiihiiikhshhhnhBihkiohnh8hkhlhhj",
   "nhUqi5h5h_h5h_h5h_h5h_h5hoiShAwXhkShohuh2lhvQCh_mmVmnhxinhihllehBhhQjNhjuiqkhBq_xahWuKhWmLhF",
   "vnhkhihvhFmrnJhMikqGFhkh7hihhihhqhkhhhhmhkhhhhhhjhihhihhhhhhhhhhihhikhnhkhkhhhqhxljhlhxUz6m6",
   "m6GTiqGAhAXJhAhaBkmemiCUluRJnvOzCNiewCPhLaklADkQKX1Qn"]

def word : CharSet := alternating wordRuns

def digitRuns : List String :=
  ["QhqGRhqGkqGmqcsqWjqWjqWjqWjqWjqWjqWjqWjqWjqAjqWjqGiqWoqGiqGahqGhqMpqAkqGlqmqWlqWiqGkqmqGOChq",
   "G1qGhqGmq2qWiqWsqWY0qGMhqGEiqmqc4qAkqchqQkqWoqWqqWjqWrqGjqm0MiqGtqGjqW0qWiqWnqGiqGtqWOwqGJiq",
   "WiqGkqWwqWb3qUWiShAKiqGtqWvqXnqV6qWUkq"]

def digit : CharSet := alternating digitRuns

def numericRuns : List String :=
  ["QhqYjilhijBNhqGkqGmqcsqWjqkmMjqWjqWjqimOjtTjqonHjqIjnnzNjqAjqWjqGi0MoqGiqP20R7jPnqmq2qMpqAkr",
   "FlqmqWlqWiqGkqmqWAhhjmmqGmThilW2chOi2Wz-JLhhJ4h5pujXqkKkq-ohvAhqHhvAb8qclqAqmakqGhqGmq2qWiqW",
   "sqWY0qNvNhsZhxiVq7Ehk9hohGklKmqO9o5nHhpLil2mAliiwiOhAipUhi-jLilIjo4oJhnKqmQhqmqWo_ekqKhkQjnG",
   "k-AkqchqQkqn0bnqWqqWjqWrqGjqm0MisEtzdiqW0qWi9DnqGiqGtqGj1LBhPjBGvqGJiqWiqGkqhnOwqGo3ZS3qGOh0",
   "s0Mj5VChShAKiqGtqWvqXnqM2pAkqX4bhhjhkMiNhhvC-tDXiq"]

def letterRuns : List String :=
  ["Bi6m6Phhqhkhl3h_hKuksulnhhhWihKhlhiikhhmhhjhhh0hTihLkoGlhGhihmJhHhuhhhihihho7kk9rlYhhnuGjhok",
   "okjqjihwQhtFj4Bhpikhl4izz5nrl4hmxKhqsjnmMihwhjkvtzhoiii2hnhhjkjoiiiihhohkihlsiqhkjhmkii2hnhi",
   "hihiklkiiikhnkhhxmrjhphjh2hnhihljphjhijhvk1kkjhoiii2hnhihljoiiiipikihlthwihmjjhkjihhhijijjjs",
   "kljjhjjhmhIhthjh3hwjohjhjoihjihik8khohjh3hqhljohjhjoimihktjsthjhJhiohjhjhhlknl2mhjhyj4hphhin",
   "omhhhoyitahlnmhThihhhlh4hhhzhjilhhmhukAhhfhohEhkzkwhEhDiXhhhilwAiqkiGhhhlhiLhhNqhkinhhhkiJhh",
   "kiBhhkinhhhkivhZhhkiDiFhwwWiimjMzixh6lLijrn0r1s0sthjhisUhizuhkhDiZinLhlGiq_hskp3-ilrMhk6Wh8k",
   "fhi0Shh3irjRhUhhvhoThKhikqMhhruXh2jqEhirlLhijJhkhmhijhlAmHhurWoimiGhimiohhhhhhh_iVhhnhhjjhnj",
   "kimktljhnUjhthwtFjhkhiqhhjlmhhhhhhkhrikllkhxJhN5UhWYhFnmkjisGhhhlhiYhnhw3pnhnhnhnhnhnhnhnhAh",
   "PhhVuj5pnlilkWimjhaihklLhheixAhQhwAwAOmAiNU1DiOhiNojwqi0PhlojRjHhpiHjiDiiihhho10hBh4UhsEihhM",
   "hmjhhjqBhlDht9jThhsvhwwqlhXhpuy3jFihhhh4jiwikrmimimpnhnhLhhumbj1Edqs3kRhEIoOriKjGhnsllshthlh",
   "hhihihMjBhLryAiiWhIhsUjlhHkEh6m6rZijmimimijDhsh6hzhihviuChbjFiVhLo9jRhPhAht-lLhl-iEhkohlKhek",
   "yEhkEhkIhoUhsrhvhnhihrhvhnhijUhsXpp2qo4mhKhhpFimihhMhhijhi3q3p_Bizhiq2q6GiYhmiAikhilohjh9Kh9",
   "j9Dhoh87Whq2qztyOjJiXhThtThtIhCh8p3anKhhijiwjbh9qho2KhyOh173pGiLhlqZhpht53ThxkoDhjhpAihkpiqh",
   "hhDhyhChihmkehnhhhkhvhqnZh3khoiii2hnhihljoiiiijhmhln8qhhihhGhhknhihhkhihhhhhhMhCihjhk0j-Ciii",
   "hhYlWhin5mChfhhhjhbhWhihHi7iu1nZlZhHjAi_oihiohih-hiiiikdioiOhimhhhi7ThiqxIilhyJiHmBh_phNhhnh",
   "hRh-i2huJinhihMhjhhihjhhii4mhihFhhihkhhHq3pxhJhjjPjhPia8GjPjxEmMSiBjvQBhxm5bcjlHyZVm-sjTWhZx",
   "n_xPix-yQhwk_1lzQtNhTmAiAkLikZhnxAiihhsiuYfloWGhKhpHXokhnhihDpvh9jihukoMsEIiLjltjpnqkhBblVih",
   "HihiihiiikhshhhnhBihkiohnh8hkhlhhjnhUqi5h5h_h5h_h5h_h5h_h5hoUZh_mmVmnhxinhihllehBhhQjNhqnwhB",
   "q-yMhEv8En-ihPvnhkhihvhFmbhEijhjhUFhkh7hihhihhqhkhhhhmhkhhhhhhjhihhihhhhhhhhhhihhikhnhkhkhhh",
   "qhxljhlhxUz6m6m6WTjAXJhAhaBkmemiCUluRJnvOzCNiewCPhLaklADk"]

def space : CharSet :=
  .ofRanges [(9, 13), (0x20, 0x20), (0x85, 0x85), (0xA0, 0xA0), (0x1680, 0x1680), (0x2000, 0x200A),
    (0x2028, 0x2029), (0x202F, 0x202F), (0x205F, 0x205F), (0x3000, 0x3000)]

def isAlphabetic (c : Char) : Bool := (alternating letterRuns).contains c

def isAlphanumeric (c : Char) : Bool :=
  isAlphabetic c || (alternating numericRuns).contains c

end PairGrep.Pattern.Unicode
